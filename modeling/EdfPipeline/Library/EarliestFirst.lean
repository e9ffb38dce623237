import Mathlib.Order.Defs.LinearOrder
import Mathlib.Data.List.MinMax
import Mathlib.Data.List.Perm.Basic

/-!
# Earliest-first queues

A priority queue is a bag of items; popping it returns any item with a least
key. Ties are left open, so a property of every pop holds of any heap.
-/

set_option autoImplicit false

namespace EarliestFirst

variable {α κ : Type} [LinearOrder κ]

/-- `item` is one that popping the bag may return. -/
def Earliest (key : α → κ) (item : α) (bag : List α) : Prop :=
  item ∈ bag ∧ ∀ other ∈ bag, key item ≤ key other

instance decidableEarliest [DecidableEq α] (key : α → κ) (item : α) (bag : List α) :
    Decidable (Earliest key item bag) :=
  inferInstanceAs (Decidable (item ∈ bag ∧ ∀ other ∈ bag, key item ≤ key other))

theorem exists_earliest (key : α → κ) {bag : List α} (nonempty : bag ≠ []) :
    ∃ item, Earliest key item bag := by
  induction bag with
  | nil => exact absurd rfl nonempty
  | cons head tail ih =>
      by_cases last : tail = []
      · subst last
        exact ⟨head, by simp, by simp⟩
      · obtain ⟨best, member, least⟩ := ih last
        rcases le_total (key head) (key best) with first | first
        · refine ⟨head, by simp, ?_⟩
          intro other present
          rcases List.mem_cons.mp present with rfl | later
          · exact le_rfl
          · exact first.trans (least other later)
        · refine ⟨best, List.mem_cons_of_mem _ member, ?_⟩
          intro other present
          rcases List.mem_cons.mp present with rfl | later
          · exact first
          · exact least other later

theorem Earliest.perm [DecidableEq α] {key : α → κ} {item : α} {bag : List α}
    (earliest : Earliest key item bag) : bag.Perm (item :: bag.erase item) :=
  List.perm_cons_erase earliest.1

/-- A max-heap over `cmp` pops an item no other one is greater than. -/
def Greatest (cmp : α → α → Ordering) (item : α) (bag : List α) : Prop :=
  item ∈ bag ∧ ∀ other ∈ bag, cmp other item ≠ .gt

instance [DecidableEq α] (cmp : α → α → Ordering) (item : α) (bag : List α) :
    Decidable (Greatest cmp item bag) :=
  inferInstanceAs (Decidable (item ∈ bag ∧ ∀ other ∈ bag, cmp other item ≠ .gt))

/-- Comparing keys in reverse turns a max-heap into an earliest-first queue. -/
theorem greatest_iff_earliest (key : α → κ) (item : α) (bag : List α) :
    Greatest (fun self other => compare (key other) (key self)) item bag ↔ Earliest key item bag :=
  and_congr_right fun _ => forall₂_congr fun _ _ => compare_le_iff_le

/-! ## Keys that stand for a rank

A queue ordered by one key serves in the order of another one, the rank, when
the two order the queued items alike.
-/

section Ranks

variable {ρ : Type} [LinearOrder ρ]

/-- The two items are ordered by their keys as by their ranks. -/
def Agree (key : α → κ) (rank : α → ρ) (item other : α) : Prop :=
  (key item ≤ key other → rank item ≤ rank other) ∧
    (key other ≤ key item → rank other ≤ rank item)

def AgreeAll (key : α → κ) (rank : α → ρ) (bag : List α) : Prop :=
  ∀ item ∈ bag, ∀ other ∈ bag, Agree key rank item other

theorem Agree.symm {key : α → κ} {rank : α → ρ} {item other : α} (agree : Agree key rank item other) :
    Agree key rank other item :=
  ⟨agree.2, agree.1⟩

theorem Earliest.rank_le {key : α → κ} {rank : α → ρ} {item : α} {bag : List α}
    (earliest : Earliest key item bag) (agree : AgreeAll key rank bag) :
    ∀ other ∈ bag, rank item ≤ rank other :=
  fun other member => (agree item earliest.1 other member).1 (earliest.2 other member)

theorem agreeAll_nil (key : α → κ) (rank : α → ρ) : AgreeAll key rank [] := by
  simp [AgreeAll]

theorem AgreeAll.cons {key : α → κ} {rank : α → ρ} {item : α} {bag : List α}
    (agree : AgreeAll key rank bag) (head : ∀ other ∈ bag, Agree key rank item other) :
    AgreeAll key rank (item :: bag) := by
  intro first firstIn second secondIn
  rcases List.mem_cons.mp firstIn with rfl | firstOld
  · rcases List.mem_cons.mp secondIn with rfl | secondOld
    · exact ⟨fun _ => le_rfl, fun _ => le_rfl⟩
    · exact head second secondOld
  · rcases List.mem_cons.mp secondIn with rfl | secondOld
    · exact (head first firstOld).symm
    · exact agree first firstOld second secondOld

variable [DecidableEq α]

theorem AgreeAll.erase {key : α → κ} {rank : α → ρ} {bag : List α}
    (agree : AgreeAll key rank bag) (item : α) : AgreeAll key rank (bag.erase item) :=
  fun first firstIn second secondIn =>
    agree first (List.mem_of_mem_erase firstIn) second (List.mem_of_mem_erase secondIn)

def Pops (key : α → κ) : List α → List α → Prop
  | _, [] => True
  | bag, item :: more => Earliest key item bag ∧ Pops key (bag.erase item) more

/-- Popping these items serves, each time, one of least rank. -/
def PopsLeast (rank : α → ρ) : List α → List α → Prop
  | _, [] => True
  | bag, item :: more =>
      (∀ other ∈ bag, rank item ≤ rank other) ∧ PopsLeast rank (bag.erase item) more

theorem AgreeAll.popsLeast {key : α → κ} {rank : α → ρ} {bag : List α} (agree : AgreeAll key rank bag)
    {items : List α} (pops : Pops key bag items) : PopsLeast rank bag items := by
  induction items generalizing bag with
  | nil => trivial
  | cons item more ih =>
      exact ⟨pops.1.rank_le agree, ih (agree.erase item) pops.2⟩

/-- Two items that are ordered differently come out in the wrong order once
everything before them is popped. -/
theorem exists_pops_not_least {key : α → κ} {rank : α → ρ} {bag : List α} {item other : α}
    (itemIn : item ∈ bag) (otherIn : other ∈ bag) (first : key item ≤ key other)
    (wrong : rank other < rank item) :
    ∃ items, Pops key bag items ∧ ¬ PopsLeast rank bag items := by
  induction size : bag.length generalizing bag with
  | zero =>
      rw [List.length_eq_zero_iff.mp size] at itemIn
      cases itemIn
  | succ count ih =>
      obtain ⟨best, earliest⟩ := exists_earliest key (List.ne_nil_of_mem itemIn)
      by_cases due : key item ≤ key best
      · have here : Earliest key item bag :=
          ⟨itemIn, fun another member => due.trans (earliest.2 another member)⟩
        exact ⟨[item], ⟨here, trivial⟩, fun least => absurd (least.1 other otherIn) (not_le.mpr wrong)⟩
      · have notItem : item ≠ best := fun same => due (same ▸ le_rfl)
        have notOther : other ≠ best := fun same => due (same ▸ first)
        obtain ⟨items, pops, fails⟩ := ih ((List.mem_erase_of_ne notItem).mpr itemIn)
          ((List.mem_erase_of_ne notOther).mpr otherIn)
          (by rw [List.length_erase_of_mem earliest.1, size, Nat.add_sub_cancel])
        exact ⟨best :: items, ⟨earliest, pops⟩, fun least => fails least.2⟩

/-- A bag is always served by rank exactly if keys and ranks order it alike. -/
theorem popsLeast_iff_agreeAll {key : α → κ} {rank : α → ρ} {bag : List α} :
    (∀ items, Pops key bag items → PopsLeast rank bag items) ↔ AgreeAll key rank bag := by
  constructor
  · intro always item itemIn other otherIn
    constructor
    · intro first
      by_contra wrong
      obtain ⟨items, pops, fails⟩ := exists_pops_not_least itemIn otherIn first (not_le.mp wrong)
      exact fails (always items pops)
    · intro first
      by_contra wrong
      obtain ⟨items, pops, fails⟩ := exists_pops_not_least otherIn itemIn first (not_le.mp wrong)
      exact fails (always items pops)
  · intro agree items pops
    exact agree.popsLeast pops

end Ranks

/-! ## Scanning for the first least key -/

variable {ι : Type}

/-- One step of a scan: a candidate is replaced only by a strictly smaller key. -/
def keepLeast (key : ι → Option κ) (best : Option (ι × κ)) (index : ι) : Option (ι × κ) :=
  match key index with
  | none => best
  | some value =>
      match best with
      | none => some (index, value)
      | some (_, current) => if value < current then some (index, value) else best

/-- The scan found nothing, or a least key and no equal one before it. -/
def FirstLeast (before : ι → ι → Prop) (key : ι → Option κ) (scanned : List ι) :
    Option (ι × κ) → Prop
  | none => ∀ index ∈ scanned, key index = none
  | some (best, least) => best ∈ scanned ∧ key best = some least ∧
      ∀ index ∈ scanned, ∀ value, key index = some value →
        least < value ∨ least = value ∧ (index = best ∨ before best index)

theorem foldl_keepLeast {before : ι → ι → Prop} (key : ι → Option κ) {indices : List ι}
    (ordered : indices.Pairwise before) :
    FirstLeast before key indices (indices.foldl (keepLeast key) none) := by
  induction indices using List.reverseRecOn with
  | nil => simp [FirstLeast]
  | append_singleton scanned index ih =>
      obtain ⟨earlier, _, later⟩ := List.pairwise_append.mp ordered
      have first := ih earlier
      rw [List.foldl_append, List.foldl_cons, List.foldl_nil]
      cases best : scanned.foldl (keepLeast key) none with
      | none =>
          rw [best] at first
          cases found : key index with
          | none =>
              simp only [keepLeast, found]
              intro other member
              rcases List.mem_append.mp member with old | new
              · exact first other old
              · rw [List.mem_singleton.mp new, found]
          | some value =>
              simp only [keepLeast, found]
              refine ⟨by simp, found, ?_⟩
              intro other member value' present
              rcases List.mem_append.mp member with old | new
              · rw [first other old] at present
                cases present
              · rw [List.mem_singleton.mp new, found] at present
                cases present
                exact .inr ⟨rfl, .inl (List.mem_singleton.mp new)⟩
      | some candidate =>
          obtain ⟨best', least⟩ := candidate
          rw [best] at first
          obtain ⟨member, held, minimal⟩ := first
          cases found : key index with
          | none =>
              simp only [keepLeast, found]
              refine ⟨List.mem_append_left _ member, held, ?_⟩
              intro other present value' shown
              rcases List.mem_append.mp present with old | new
              · exact minimal other old value' shown
              · rw [List.mem_singleton.mp new, found] at shown
                cases shown
          | some value =>
              by_cases smaller : value < least
              · simp only [keepLeast, found, if_pos smaller]
                refine ⟨by simp, found, ?_⟩
                intro other present value' shown
                rcases List.mem_append.mp present with old | new
                · rcases minimal other old value' shown with less | ⟨same, _⟩
                  · exact .inl (smaller.trans less)
                  · exact .inl (same ▸ smaller)
                · rw [List.mem_singleton.mp new, found] at shown
                  cases shown
                  exact .inr ⟨rfl, .inl (List.mem_singleton.mp new)⟩
              · simp only [keepLeast, found, if_neg smaller]
                refine ⟨List.mem_append_left _ member, held, ?_⟩
                intro other present value' shown
                rcases List.mem_append.mp present with old | new
                · exact minimal other old value' shown
                · have here := List.mem_singleton.mp new
                  rw [here, found] at shown
                  cases shown
                  rcases (not_lt.mp smaller).lt_or_eq with less | same
                  · exact .inl less
                  · exact .inr ⟨same, .inr (here ▸ later best' member index (by simp))⟩

end EarliestFirst
