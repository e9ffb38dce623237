import Mathlib.Data.List.AList
import Mathlib.Data.Multiset.Basic
import Mathlib.Data.Multiset.AddSub
import Mathlib.Data.Multiset.Range
import Mathlib.Data.Multiset.UnionInter
import Mathlib.Order.Bounds.Defs

/-!
# Reorder buffers

Items are numbered in the order they are issued, complete in any order and are
released in the order of their numbers. A buffer keeps the next number to
release and the completed items that are still ahead of it. The accounting
invariant says that every issued item is released, buffered or outstanding,
each under its own number and only once.
-/

set_option autoImplicit false

namespace ReorderBuffer

variable {α : Type}

/-- The items of a list, each paired with its position. -/
def stamped (issued : List α) : Multiset (Nat × α) :=
  ↑(issued.zipIdx.map Prod.swap)

@[simp] theorem stamped_nil : stamped ([] : List α) = 0 := rfl

theorem stamped_append_singleton (issued : List α) (item : α) :
    stamped (issued ++ [item]) = (issued.length, item) ::ₘ stamped issued := by
  simp only [stamped, List.zipIdx_append, List.map_append, List.zipIdx_singleton,
    List.map_cons, List.map_nil, ← Multiset.coe_add, Prod.swap_prod_mk, Nat.zero_add]
  exact Multiset.add_comm _ _

theorem mem_stamped {issued : List α} {number : Nat} {item : α} :
    (number, item) ∈ stamped issued ↔ issued[number]? = some item := by
  simp only [stamped, Multiset.mem_coe, List.mem_map]
  constructor
  · rintro ⟨⟨value, index⟩, member, same⟩
    cases same
    exact List.mk_mem_zipIdx_iff_getElem?.mp member
  · intro found
    exact ⟨(item, number), List.mk_mem_zipIdx_iff_getElem?.mpr found, rfl⟩

theorem map_fst_stamped (issued : List α) :
    (stamped issued).map Prod.fst = Multiset.range issued.length := by
  have numbers : issued.zipIdx.map Prod.snd = List.range issued.length := by
    rw [List.zipIdx_map_snd, List.range_eq_range']
  simp only [stamped, Multiset.map_coe, List.map_map, Multiset.range]
  exact congrArg _ numbers

theorem map_snd_stamped (issued : List α) :
    (stamped issued).map Prod.snd = issued := by
  have items : issued.zipIdx.map Prod.fst = issued := List.zipIdx_map_fst 0 issued
  simp only [stamped, Multiset.map_coe, List.map_map]
  exact congrArg _ items

/-- The completed items waiting for an earlier one. -/
abbrev Pending (α : Type) : Type := AList fun _ : Nat => α

def Pending.items (pending : Pending α) : Multiset (Nat × α) :=
  ↑(pending.entries.map fun entry => (entry.1, entry.2))

@[simp] theorem Pending.items_empty : Pending.items (∅ : Pending α) = 0 := rfl

theorem Pending.items_insert {pending : Pending α} {number : Nat} (item : α)
    (fresh : number ∉ pending) :
    Pending.items (pending.insert number item) = (number, item) ::ₘ Pending.items pending := by
  simp only [Pending.items, AList.entries_insert_of_notMem fresh, List.map_cons,
    Multiset.cons_coe]

theorem Pending.items_erase {pending : Pending α} {number : Nat} {item : α}
    (found : pending.lookup number = some item) :
    Pending.items pending = (number, item) ::ₘ Pending.items (pending.erase number) := by
  have member : (⟨number, item⟩ : Sigma fun _ : Nat => α) ∈ pending.entries :=
    AList.mem_lookup_iff.mp found
  obtain ⟨value, before, after, _, split, erased⟩ :=
    List.exists_of_kerase (List.mem_keys_of_mem member)
  have here : (⟨number, value⟩ : Sigma fun _ : Nat => α) ∈ pending.entries := by
    rw [split]
    simp
  have same : value = item :=
    eq_of_heq (pending.nodupKeys.eq_of_mk_mem here member ▸ HEq.rfl)
  subst same
  have shape : (pending.erase number).entries = before ++ after := erased
  simp only [Pending.items, shape, split, List.map_append, List.map_cons, Multiset.cons_coe,
    Multiset.coe_eq_coe]
  exact List.perm_middle

theorem Pending.mem_items {pending : Pending α} {number : Nat} {item : α} :
    (number, item) ∈ Pending.items pending ↔ pending.lookup number = some item := by
  rw [← Option.mem_def, AList.mem_lookup_iff]
  simp only [Pending.items, Multiset.mem_coe, List.mem_map]
  constructor
  · rintro ⟨entry, member, same⟩
    cases same
    exact member
  · intro member
    exact ⟨⟨number, item⟩, member, rfl⟩

theorem Pending.card_items (pending : Pending α) :
    (Pending.items pending).card = pending.entries.length := by
  simp [Pending.items]

structure Buffer (α : Type) where
  nextEmit : Nat
  pending : Pending α

/-- Release consecutive items from the buffer, starting at `next`. The fuel
bounds the number of items released. -/
def release : Nat → Nat → Pending α → List α × Nat × Pending α
  | 0, next, pending => ([], next, pending)
  | fuel + 1, next, pending =>
      match pending.lookup next with
      | none => ([], next, pending)
      | some item =>
          let (items, final, rest) := release fuel (next + 1) (pending.erase next)
          (item :: items, final, rest)

theorem release_gap {fuel next : Nat} {pending : Pending α}
    (gap : pending.lookup next = none) :
    release (fuel + 1) next pending = ([], next, pending) := by
  simp only [release, gap]

theorem release_found {fuel next : Nat} {pending : Pending α} {item : α}
    (found : pending.lookup next = some item) :
    release (fuel + 1) next pending =
      (item :: (release fuel (next + 1) (pending.erase next)).1,
        (release fuel (next + 1) (pending.erase next)).2) := by
  simp only [release, found]

/-- Complete one item: the items this releases, and the buffer afterwards. -/
def Buffer.complete (buffer : Buffer α) (number : Nat) (item : α) : List α × Buffer α :=
  if number = buffer.nextEmit then
    let (items, final, rest) :=
      release buffer.pending.entries.length (buffer.nextEmit + 1) buffer.pending
    (item :: items, ⟨final, rest⟩)
  else
    ([], { buffer with pending := buffer.pending.insert number item })

/-- Every issued item is released, buffered or outstanding, exactly once. -/
structure Partitioned (issued : List α) (outstanding : Multiset (Nat × α)) (next : Nat)
    (pending : Pending α) : Prop where
  bounded : next ≤ issued.length
  split : stamped issued =
    stamped (issued.take next) + Pending.items pending + outstanding

/-- The partition of a buffer at rest, which holds no item it could release. -/
structure Buffer.Accounts (buffer : Buffer α) (issued : List α)
    (outstanding : Multiset (Nat × α)) : Prop
    extends Partitioned issued outstanding buffer.nextEmit buffer.pending where
  blocked : buffer.pending.lookup buffer.nextEmit = none

theorem stamped_take_succ {issued : List α} {number : Nat} {item : α}
    (found : issued[number]? = some item) :
    stamped (issued.take (number + 1)) = (number, item) ::ₘ stamped (issued.take number) := by
  obtain ⟨short, rfl⟩ := List.getElem?_eq_some_iff.mp found
  rw [List.take_succ_eq_append_getElem short, stamped_append_singleton,
    List.length_take_of_le (Nat.le_of_lt short)]

theorem Partitioned.numbers {issued : List α} {outstanding : Multiset (Nat × α)} {next : Nat}
    {pending : Pending α} (parts : Partitioned issued outstanding next pending) :
    Multiset.range issued.length = Multiset.range next +
      (Pending.items pending).map Prod.fst + outstanding.map Prod.fst := by
  have numbers := congrArg (Multiset.map Prod.fst) parts.split
  simpa only [Multiset.map_add, map_fst_stamped, List.length_take_of_le parts.bounded]
    using numbers

theorem Partitioned.numbers_nodup {issued : List α} {outstanding : Multiset (Nat × α)}
    {next : Nat} {pending : Pending α} (parts : Partitioned issued outstanding next pending) :
    (Multiset.range next + (Pending.items pending).map Prod.fst +
      outstanding.map Prod.fst).Nodup :=
  parts.numbers ▸ Multiset.nodup_range _

theorem Partitioned.pending_issued {issued : List α} {outstanding : Multiset (Nat × α)}
    {next number : Nat} {pending : Pending α} {item : α}
    (parts : Partitioned issued outstanding next pending)
    (found : pending.lookup number = some item) : issued[number]? = some item := by
  rw [← mem_stamped, parts.split]
  exact Multiset.mem_add.mpr (.inl (Multiset.mem_add.mpr (.inr (Pending.mem_items.mpr found))))

theorem Partitioned.outstanding_issued {issued : List α} {outstanding : Multiset (Nat × α)}
    {next number : Nat} {pending : Pending α} {item : α}
    (parts : Partitioned issued outstanding next pending)
    (member : (number, item) ∈ outstanding) : issued[number]? = some item := by
  rw [← mem_stamped, parts.split]
  exact Multiset.mem_add.mpr (.inr member)

theorem Partitioned.release_one {issued : List α} {outstanding : Multiset (Nat × α)}
    {next : Nat} {pending : Pending α} {item : α}
    (parts : Partitioned issued outstanding next pending)
    (found : pending.lookup next = some item) :
    Partitioned issued outstanding (next + 1) (pending.erase next) where
  bounded := (List.getElem?_eq_some_iff.mp (parts.pending_issued found)).1
  split := by
    rw [parts.split, stamped_take_succ (parts.pending_issued found),
      Pending.items_erase found, Multiset.add_cons, Multiset.cons_add, Multiset.cons_add,
      Multiset.cons_add]

/-- Releasing emits the issued items from `next` on, in order. -/
theorem release_emits {issued : List α} {outstanding : Multiset (Nat × α)} (fuel : Nat)
    {next : Nat} {pending : Pending α}
    (parts : Partitioned issued outstanding next pending) :
    issued.take (release fuel next pending).2.1 =
        issued.take next ++ (release fuel next pending).1 ∧
      Partitioned issued outstanding (release fuel next pending).2.1
        (release fuel next pending).2.2 := by
  induction fuel generalizing next pending with
  | zero => exact ⟨by simp [release], parts⟩
  | succ fuel ih =>
      cases found : pending.lookup next with
      | none =>
          rw [release_gap found]
          exact ⟨(List.append_nil _).symm, parts⟩
      | some item =>
          obtain ⟨emitted, rest⟩ := ih (parts.release_one found)
          obtain ⟨short, here⟩ := List.getElem?_eq_some_iff.mp (parts.pending_issued found)
          rw [release_found found]
          refine ⟨?_, rest⟩
          rw [emitted, List.take_succ_eq_append_getElem short, here, List.append_assoc]
          rfl

/-- With fuel for every buffered item, releasing stops only at a gap. -/
theorem release_blocked (fuel : Nat) {next : Nat} {pending : Pending α}
    (enough : (Pending.items pending).card ≤ fuel) :
    (release fuel next pending).2.2.lookup (release fuel next pending).2.1 = none := by
  induction fuel generalizing next pending with
  | zero =>
      cases found : pending.lookup next with
      | none => exact found
      | some item =>
          rw [Pending.items_erase found, Multiset.card_cons] at enough
          omega
  | succ fuel ih =>
      cases found : pending.lookup next with
      | none =>
          rw [release_gap found]
          exact found
      | some item =>
          rw [Pending.items_erase found, Multiset.card_cons] at enough
          rw [release_found found]
          exact ih (Nat.le_of_succ_le_succ enough)

theorem Buffer.accounts_initial : Buffer.Accounts (α := α) ⟨0, ∅⟩ [] 0 where
  bounded := Nat.le_refl 0
  split := rfl
  blocked := AList.lookup_empty 0

theorem Buffer.Accounts.issue {buffer : Buffer α} {issued : List α}
    {outstanding : Multiset (Nat × α)} (accounts : buffer.Accounts issued outstanding)
    (item : α) :
    buffer.Accounts (issued ++ [item]) ((issued.length, item) ::ₘ outstanding) where
  bounded := by
    rw [List.length_append]
    exact Nat.le_add_right_of_le accounts.bounded
  split := by
    rw [stamped_append_singleton, List.take_append_of_le_length accounts.bounded,
      accounts.split, Multiset.add_cons]
  blocked := accounts.blocked

/-- Completing an outstanding item extends the released prefix by exactly the
items handed out. -/
theorem Buffer.Accounts.complete {buffer : Buffer α} {issued : List α}
    {outstanding : Multiset (Nat × α)} {number : Nat} {item : α}
    (accounts : buffer.Accounts issued ((number, item) ::ₘ outstanding)) :
    (buffer.complete number item).2.Accounts issued outstanding ∧
      issued.take (buffer.complete number item).2.nextEmit =
        issued.take buffer.nextEmit ++ (buffer.complete number item).1 := by
  have here := accounts.outstanding_issued (Multiset.mem_cons_self _ _)
  by_cases due : number = buffer.nextEmit
  · subst due
    obtain ⟨short, value⟩ := List.getElem?_eq_some_iff.mp here
    have advanced : Partitioned issued outstanding (buffer.nextEmit + 1) buffer.pending := {
      bounded := short
      split := by
        rw [accounts.split, stamped_take_succ here, Multiset.add_cons, Multiset.cons_add,
          Multiset.cons_add] }
    obtain ⟨emitted, rest⟩ := release_emits buffer.pending.entries.length advanced
    have blocked := @release_blocked _ buffer.pending.entries.length (buffer.nextEmit + 1)
      buffer.pending (Nat.le_of_eq (Pending.card_items _))
    simp only [Buffer.complete, ↓reduceIte]
    refine ⟨{ rest with blocked }, ?_⟩
    rw [emitted, List.take_succ_eq_append_getElem short, value, List.append_assoc]
    rfl
  · have absent : number ∉ buffer.pending := by
      intro member
      obtain ⟨other, found⟩ := AList.lookup_isSome.mpr member |> Option.isSome_iff_exists.mp
      have twice := accounts.numbers_nodup
      rw [Pending.items_erase found] at twice
      simp [Multiset.nodup_add] at twice
    simp only [Buffer.complete, due, ↓reduceIte, List.append_nil, and_true]
    exact {
      bounded := accounts.bounded
      split := by
        rw [accounts.split, Pending.items_insert item absent, Multiset.add_cons,
          Multiset.add_cons, Multiset.cons_add]
      blocked := by
        rw [AList.lookup_insert_ne (fun same => due same.symm)]
        exact accounts.blocked }

/-- What is not outstanding has been released or is buffered. -/
theorem Partitioned.completed {issued : List α} {completed outstanding : Multiset (Nat × α)}
    {next : Nat} {pending : Pending α} (parts : Partitioned issued outstanding next pending)
    (split : stamped issued = completed + outstanding) :
    completed = stamped (issued.take next) + Pending.items pending :=
  Multiset.add_left_inj.mp (split.symm.trans parts.split)

/-- Everything is still outstanding for a buffer that has seen no completion. -/
theorem Buffer.accounts_outstanding (issued : List α) :
    Buffer.Accounts (α := α) ⟨0, ∅⟩ issued (stamped issued) where
  bounded := Nat.zero_le _
  split := by simp
  blocked := AList.lookup_empty 0

/-- The buffer releases up to the first number that has not completed. -/
theorem Buffer.Accounts.nextEmit_least {buffer : Buffer α} {issued : List α}
    {completed outstanding : Multiset (Nat × α)} (accounts : buffer.Accounts issued outstanding)
    (split : stamped issued = completed + outstanding) :
    IsLeast {number | number ∉ completed.map Prod.fst} buffer.nextEmit := by
  rw [accounts.completed split]
  constructor
  · intro member
    obtain ⟨⟨number, item⟩, found, rfl⟩ := Multiset.mem_map.mp member
    rcases Multiset.mem_add.mp found with released | buffered
    · obtain ⟨short, _⟩ := List.getElem?_eq_some_iff.mp (mem_stamped.mp released)
      rw [List.length_take_of_le accounts.bounded] at short
      exact Nat.lt_irrefl _ short
    · have here := Pending.mem_items.mp buffered
      rw [accounts.blocked] at here
      cases here
  · intro number missing
    by_contra early
    have below : number < (issued.take buffer.nextEmit).length := by
      rw [List.length_take_of_le accounts.bounded]
      omega
    apply missing
    have released := mem_stamped.mpr (List.getElem?_eq_getElem below)
    exact Multiset.mem_map.mpr ⟨_, Multiset.mem_add.mpr (.inl released), rfl⟩

theorem Buffer.Accounts.pending_beyond {buffer : Buffer α} {issued : List α}
    {outstanding : Multiset (Nat × α)} (accounts : buffer.Accounts issued outstanding)
    {number : Nat} {item : α} (found : buffer.pending.lookup number = some item) :
    buffer.nextEmit < number := by
  have distinct := accounts.numbers_nodup
  rw [Multiset.nodup_add, Multiset.nodup_add] at distinct
  have buffered : number ∈ (Pending.items buffer.pending).map Prod.fst :=
    Multiset.mem_map_of_mem Prod.fst (Pending.mem_items.mpr found)
  have unreleased : ¬ number < buffer.nextEmit := fun early =>
    Multiset.disjoint_left.mp distinct.1.2.2 (Multiset.mem_range.mpr early) buffered
  have different : number ≠ buffer.nextEmit := by
    rintro rfl
    rw [accounts.blocked] at found
    cases found
  omega

/-- The buffer holds the completed items beyond the released ones, under their numbers. -/
theorem Buffer.Accounts.lookup_iff {buffer : Buffer α} {issued : List α}
    {completed outstanding : Multiset (Nat × α)} (accounts : buffer.Accounts issued outstanding)
    (split : stamped issued = completed + outstanding) {number : Nat} {item : α} :
    buffer.pending.lookup number = some item ↔
      buffer.nextEmit < number ∧ (number, item) ∈ completed := by
  rw [accounts.completed split]
  constructor
  · intro found
    have buffered := Pending.mem_items.mpr found
    exact ⟨accounts.pending_beyond found, Multiset.mem_add.mpr (.inr buffered)⟩
  · rintro ⟨beyond, member⟩
    rcases Multiset.mem_add.mp member with released | buffered
    · obtain ⟨short, _⟩ := List.getElem?_eq_some_iff.mp (mem_stamped.mp released)
      rw [List.length_take_of_le accounts.bounded] at short
      omega
    · exact Pending.mem_items.mp buffered

/-- With nothing outstanding every issued item has been released. -/
theorem Buffer.Accounts.quiescent {buffer : Buffer α} {issued : List α}
    (accounts : buffer.Accounts issued 0) :
    buffer.pending.entries = [] ∧ buffer.nextEmit = issued.length := by
  have numbers := accounts.numbers
  rw [Multiset.map_zero, Multiset.add_zero] at numbers
  have reached : issued.length ≤ buffer.nextEmit := by
    by_contra short
    have member : buffer.nextEmit ∈ Multiset.range issued.length :=
      Multiset.mem_range.mpr (Nat.lt_of_not_le short)
    rw [numbers, Multiset.mem_add] at member
    rcases member with below | buffered
    · exact absurd (Multiset.mem_range.mp below) (Nat.lt_irrefl _)
    · obtain ⟨⟨number, item⟩, found, same⟩ := Multiset.mem_map.mp buffered
      cases same
      rw [Pending.mem_items, accounts.blocked] at found
      cases found
  have all := Nat.le_antisymm accounts.bounded reached
  have sizes := congrArg Multiset.card numbers
  simp only [Multiset.card_range, Multiset.card_add, Multiset.card_map,
    Pending.card_items] at sizes
  exact ⟨List.length_eq_zero_iff.mp (by omega), all⟩

end ReorderBuffer
