import Mathlib.Data.Int.CardIntervalMod
import Mathlib.Data.List.Induction
import Mathlib.Data.List.Nodup

/-!
# Round robin

Items of several classes are dealt to the seats of their class, each class in
turn. The seats of a class get the same number of items, give or take one.
-/

set_option autoImplicit false

namespace RoundRobin

variable {Class Seat Item : Type}

/-- The seat of an item when so many of its class came before it. -/
def turn (seats : List Seat) (earlier : Nat) : Option Seat := seats[earlier % seats.length]?

theorem mem_of_turn {seats : List Seat} {earlier : Nat} {seat : Seat}
    (turns : turn seats earlier = some seat) : seat ∈ seats :=
  List.mem_of_getElem? turns

theorem turn_mod (seats : List Seat) (earlier : Nat) :
    turn seats (earlier % seats.length) = turn seats earlier := by
  rw [turn, turn, Nat.mod_mod]

/-- How many of the first turns are the one at this position. -/
theorem turns_balanced {length first second : Nat} (turns : Nat) (within : first < length)
    (within' : second < length) :
    turns.count (· % length = first) ≤ turns.count (· % length = second) + 1 := by
  have counted {position : Nat} (below : position < length) :
      turns.count (· % length = position) =
        turns / length + if position < turns % length then 1 else 0 := by
    have residue := Nat.count_modEq_card turns (Nat.zero_lt_of_lt below) position
    simp only [Nat.ModEq, Nat.mod_eq_of_lt below] at residue
    exact residue
  rw [counted within, counted within']
  split <;> split <;> omega

variable [DecidableEq Class]

def ofClass (class_ : Class) (items : List (Class × Item)) : Nat :=
  items.countP fun entry => entry.1 = class_

theorem ofClass_concat (class_ : Class) (items : List (Class × Item)) (entry : Class × Item) :
    ofClass class_ (items ++ [entry]) = ofClass class_ items + if entry.1 = class_ then 1 else 0 := by
  rw [ofClass, List.countP_append, List.countP_singleton]
  simp only [decide_eq_true_eq]
  rfl

/-- The seat of an item after the earlier ones. -/
def seat (seats : Class → List Seat) (earlier : List (Class × Item)) (entry : Class × Item) :
    Option (Seat × Item) :=
  (turn (seats entry.1) (ofClass entry.1 earlier)).map fun seat => (seat, entry.2)

def dealReversed (seats : Class → List Seat) : List (Class × Item) → List (Seat × Item)
  | [] => []
  | entry :: earlier => dealReversed seats earlier ++ (seat seats earlier.reverse entry).toList

/-- The items with their seats; those of a class without seats are left out. -/
def deal (seats : Class → List Seat) (items : List (Class × Item)) : List (Seat × Item) :=
  dealReversed seats items.reverse

variable (seats : Class → List Seat)

@[simp] theorem deal_nil : deal seats ([] : List (Class × Item)) = [] := rfl

theorem deal_concat (items : List (Class × Item)) (entry : Class × Item) :
    deal seats (items ++ [entry]) = deal seats items ++ (seat seats items entry).toList := by
  rw [deal, List.reverse_append, List.reverse_singleton, List.singleton_append, dealReversed,
    List.reverse_reverse]
  rfl

/-- Items keep their order, and none is dealt twice. -/
theorem deal_sublist (items : List (Class × Item)) :
    ((deal seats items).map Prod.snd).Sublist (items.map Prod.snd) := by
  induction items using List.reverseRecOn with
  | nil => exact List.Sublist.refl _
  | append_singleton items entry ih =>
      rw [deal_concat, List.map_append, List.map_append]
      refine ih.append ?_
      cases taken : seat seats items entry with
      | none => exact List.nil_sublist _
      | some dealt =>
          obtain ⟨_, _, rfl⟩ := Option.map_eq_some_iff.mp taken
          exact List.Sublist.refl _

variable {seats} [DecidableEq Seat]

/-- The seat at a position gets the items whose turn it is. -/
theorem countP_deal {class_ : Class} {position : Nat} {one : Seat}
    (only : ∀ other earlier, turn (seats other) earlier = some one ↔
      other = class_ ∧ earlier % (seats class_).length = position) (items : List (Class × Item)) :
    (deal seats items).countP (fun dealt => dealt.1 = one) =
      (ofClass class_ items).count (· % (seats class_).length = position) := by
  induction items using List.reverseRecOn with
  | nil => rfl
  | append_singleton items entry ih =>
      rw [deal_concat, List.countP_append, ih, ofClass_concat]
      have dealt : (seat seats items entry).toList.countP (fun dealt => dealt.1 = one) =
          if turn (seats entry.1) (ofClass entry.1 items) = some one then 1 else 0 := by
        rw [seat]
        cases turn (seats entry.1) (ofClass entry.1 items) with
        | none => rfl
        | some other => simp
      rw [dealt]
      by_cases same : entry.1 = class_
      · subst same
        simp [only, Nat.count_succ]
      · simp [only, same]

/-- Seats of a class that are its own get the same number of items, give or take one. -/
theorem deal_balanced {class_ : Class} (distinct : (seats class_).Nodup)
    (own : ∀ other, other ≠ class_ → List.Disjoint (seats class_) (seats other))
    {first second : Seat} (listed : first ∈ seats class_) (listed' : second ∈ seats class_)
    (items : List (Class × Item)) :
    (deal seats items).countP (fun dealt => dealt.1 = first) ≤
      (deal seats items).countP (fun dealt => dealt.1 = second) + 1 := by
  have position {one : Seat} (listed : one ∈ seats class_) :
      ∃ position < (seats class_).length, ∀ other earlier, turn (seats other) earlier = some one ↔
        other = class_ ∧ earlier % (seats class_).length = position := by
    obtain ⟨position, within, rfl⟩ := List.getElem_of_mem listed
    refine ⟨position, within, ?_⟩
    intro other earlier
    by_cases same : other = class_
    · subst same
      have bound := Nat.mod_lt earlier (Nat.zero_lt_of_lt within)
      rw [turn, List.getElem?_eq_getElem bound, Option.some_inj, distinct.getElem_inj_iff]
      exact (and_iff_right rfl).symm
    · refine iff_of_false ?_ fun both => same both.1
      exact fun turns => own other same listed (mem_of_turn turns)
  obtain ⟨one, within, only⟩ := position listed
  obtain ⟨two, within', only'⟩ := position listed'
  rw [countP_deal only, countP_deal only']
  exact turns_balanced _ within within'

end RoundRobin
