import EdfPipeline.Library.TransitionSystem
import Mathlib.Algebra.BigOperators.Group.Finset.Basic
import Mathlib.Data.Fintype.BigOperators

/-!
# Ledgers over an indexed family

Sums of a quantity over a family of parties, and how they move when one party
is replaced.
-/

set_option autoImplicit false

namespace Ledger

variable {ι α M : Type} [Fintype ι] [DecidableEq ι] [AddCommMonoid M]

/-- Replacing one party moves the total by the difference at that party. -/
theorem sum_update (holds : α → M) (family : ι → α) (party : ι) (replacement : α) :
    ∑ other, holds (Function.update family party replacement other) + holds (family party) =
      ∑ other, holds (family other) + holds replacement := by
  rw [← Finset.add_sum_erase _ _ (Finset.mem_univ party),
    ← Finset.add_sum_erase Finset.univ (fun other => holds (family other))
      (Finset.mem_univ party)]
  have others : ∑ other ∈ Finset.univ.erase party,
        holds (Function.update family party replacement other) =
      ∑ other ∈ Finset.univ.erase party, holds (family other) := by
    refine Finset.sum_congr rfl ?_
    intro other member
    rw [Function.update_of_ne (Finset.ne_of_mem_erase member)]
  rw [others, Function.update_self, add_comm (holds replacement), add_comm (holds (family party)),
    add_assoc, add_assoc, add_comm (holds replacement)]

/-- Replacing a party by one that holds as much keeps the total. -/
theorem sum_update_of_eq {holds : α → M} {family : ι → α} {party : ι} {replacement : α}
    (same : holds replacement = holds (family party)) :
    ∑ other, holds (Function.update family party replacement other) =
      ∑ other, holds (family other) := by
  refine Finset.sum_congr rfl ?_
  intro other _
  by_cases here : other = party
  · rw [here, Function.update_self, same]
  · rw [Function.update_of_ne here]

/-- Everyone else is untouched, so one party's change is the change of the total. -/
theorem sum_update_add {holds : α → M} {family : ι → α} {party : ι} {replacement : α} {gain : M}
    (grown : holds replacement = gain + holds (family party)) :
    ∑ other, holds (Function.update family party replacement other) =
      gain + ∑ other, holds (family other) := by
  rw [← Finset.add_sum_erase _ _ (Finset.mem_univ party),
    ← Finset.add_sum_erase Finset.univ (fun other => holds (family other))
      (Finset.mem_univ party), Function.update_self, grown, add_assoc]
  congr 2
  refine Finset.sum_congr rfl ?_
  intro other member
  rw [Function.update_of_ne (Finset.ne_of_mem_erase member)]

theorem sum_update_release {holds : α → M} {family : ι → α} {party : ι} {replacement : α} {loss : M}
    (released : holds (family party) = loss + holds replacement) :
    ∑ other, holds (family other) =
      loss + ∑ other, holds (Function.update family party replacement other) := by
  have back : Function.update (Function.update family party replacement) party (family party) =
      family := by
    rw [Function.update_idem, Function.update_eq_self]
  have grown := @sum_update_add _ _ _ _ _ _ holds (Function.update family party replacement) party
    (family party) loss (by rw [Function.update_self, released])
  rwa [back] at grown

omit [DecidableEq ι] in
/-- Where the total has no repetition, everything in it is with one party only. -/
theorem existsUnique_holder {β : Type} {holds : ι → Multiset β} {things : List β}
    (total : (↑things : Multiset β) = ∑ party, holds party) (nodup : things.Nodup) {thing : β}
    (listed : thing ∈ things) : ∃! party, thing ∈ holds party := by
  classical
  rw [← Multiset.coe_nodup, total] at nodup
  rw [← Multiset.mem_coe, total] at listed
  obtain ⟨party, _, here⟩ := Multiset.mem_sum.mp listed
  refine ⟨party, here, ?_⟩
  intro other there
  by_contra different
  rw [← Finset.add_sum_erase _ _ (Finset.mem_univ party), Multiset.nodup_add] at nodup
  refine Multiset.disjoint_left.mp nodup.2.2 here ?_
  exact Multiset.mem_sum.mpr ⟨other, Finset.mem_erase.mpr ⟨different, Finset.mem_univ other⟩, there⟩

/-- A step that takes something in adds it to everything taken in so far. -/
theorem observed_balance {State Action β : Type} (observe : State → Action → Option β)
    (past : TransitionSystem.Past State Action) (state : State) (action : Action) :
    (↑(TransitionSystem.observed observe (past ++ [(state, action)])) : Multiset β) =
      (observe state action).elim 0 singleton + ↑(TransitionSystem.observed observe past) := by
  rw [TransitionSystem.observed_append, ← Multiset.coe_add, add_comm]
  cases observe state action <;> rfl

/-! ## Items at places -/

section Places

variable {π β : Type}

/-- The items, each with the place it is at. -/
def entries (place : π) (items : Multiset β) : Multiset (π × β) := items.map (Prod.mk place)

@[simp] theorem map_snd_entries (place : π) (items : Multiset β) :
    (entries place items).map Prod.snd = items := by
  rw [entries, Multiset.map_map]
  exact Multiset.map_id items

@[simp] theorem mem_entries {place other : π} {items : Multiset β} {item : β} :
    (other, item) ∈ entries place items ↔ other = place ∧ item ∈ items := by
  constructor
  · intro listed
    obtain ⟨found, member, same⟩ := Multiset.mem_map.mp listed
    cases same
    exact ⟨rfl, member⟩
  · rintro ⟨rfl, member⟩
    exact Multiset.mem_map_of_mem _ member

omit [DecidableEq ι] in
theorem map_snd_sum (items : ι → Multiset (π × β)) :
    (∑ party, items party).map Prod.snd = ∑ party, (items party).map Prod.snd :=
  map_sum (Multiset.mapAddMonoidHom (Prod.snd : π × β → β)) items Finset.univ

omit [DecidableEq ι] in
@[simp] theorem map_snd_sum_entries (place : ι → π) (items : ι → Multiset β) :
    (∑ party, entries (place party) (items party)).map Prod.snd = ∑ party, items party := by
  simp only [map_snd_sum, map_snd_entries]

/-- An item that is entered once is at one place only. -/
theorem existsUnique_of_nodup {ledger : Multiset (π × β)} (distinct : (ledger.map Prod.snd).Nodup)
    {item : β} (listed : item ∈ ledger.map Prod.snd) : ∃! place, (place, item) ∈ ledger := by
  obtain ⟨⟨place, _⟩, here, rfl⟩ := Multiset.mem_map.mp listed
  refine ⟨place, here, ?_⟩
  intro other there
  exact congrArg Prod.fst (Multiset.inj_on_of_nodup_map distinct _ there _ here rfl)

theorem existsUnique_place {ledger : Multiset (π × β)} {items : List β}
    (total : (↑items : Multiset β) = ledger.map Prod.snd) (distinct : items.Nodup) {item : β}
    (listed : item ∈ items) : ∃! place, (place, item) ∈ ledger := by
  rw [← Multiset.coe_nodup, total] at distinct
  rw [← Multiset.mem_coe, total] at listed
  exact existsUnique_of_nodup distinct listed

/-- The same where some items are missing from the ledger. -/
theorem existsUnique_place_or {ledger : Multiset (π × β)} {missing : Multiset β} {items : List β}
    (total : (↑items : Multiset β) = ledger.map Prod.snd + missing) (distinct : items.Nodup)
    {item : β} (listed : item ∈ items) (found : item ∉ missing) :
    ∃! place, (place, item) ∈ ledger := by
  rw [← Multiset.coe_nodup, total, Multiset.nodup_add] at distinct
  rw [← Multiset.mem_coe, total, Multiset.mem_add] at listed
  exact existsUnique_of_nodup distinct.1 (listed.resolve_right found)

theorem notMem_of_missing {ledger : Multiset (π × β)} {missing : Multiset β} {items : List β}
    (total : (↑items : Multiset β) = ledger.map Prod.snd + missing) (distinct : items.Nodup)
    {item : β} (lost : item ∈ missing) (place : π) : (place, item) ∉ ledger := by
  rw [← Multiset.coe_nodup, total, Multiset.nodup_add] at distinct
  intro here
  exact Multiset.disjoint_left.mp distinct.2.2 (Multiset.mem_map_of_mem Prod.snd here) lost

end Places

end Ledger
