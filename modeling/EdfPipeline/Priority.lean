import Mathlib.Data.Fintype.Defs
import Mathlib.Logic.Function.Basic

/-!
# Priority classes

The latency classes of the pipeline, most critical first, and tables with one
entry for each class.
-/

set_option autoImplicit false

namespace EdfPipeline

inductive Priority where
  | high
  | medium
  | low
  | bestEffort
  deriving DecidableEq, Repr

def Priority.all : List Priority := [.high, .medium, .low, .bestEffort]

def Priority.index : Priority → Nat
  | .high => 0
  | .medium => 1
  | .low => 2
  | .bestEffort => 3

theorem Priority.index_injective : Function.Injective Priority.index := by
  intro left right same
  cases left <;> cases right <;> first | rfl | cases same

@[simp] theorem Priority.mem_all (priority : Priority) : priority ∈ Priority.all := by
  cases priority <;> simp [Priority.all]

instance : Fintype Priority where
  elems := ⟨Priority.all, by decide⟩
  complete := Priority.mem_all

/-- `self` is more critical than `other`. -/
def Priority.Above (self other : Priority) : Prop := self.index < other.index

instance (self other : Priority) : Decidable (self.Above other) :=
  inferInstanceAs (Decidable (self.index < other.index))

theorem Priority.all_pairwise : Priority.all.Pairwise Priority.Above := by decide

/-- What follows a class in the order of all classes are those below it. -/
theorem Priority.mem_tail_iff {priority other : Priority} {rest : List Priority}
    (suffix : priority :: rest <:+ Priority.all) : other ∈ rest ↔ priority.Above other := by
  obtain ⟨earlier, whole⟩ := suffix
  have sorted := Priority.all_pairwise
  rw [← whole, List.pairwise_append] at sorted
  obtain ⟨_, tail, across⟩ := sorted
  constructor
  · intro later
    exact (List.pairwise_cons.mp tail).1 other later
  · intro below
    have listed : other ∈ earlier ++ priority :: rest := whole ▸ Priority.mem_all other
    rcases List.mem_append.mp listed with before | after
    · have above : other.Above priority := across other before priority List.mem_cons_self
      exact absurd (Nat.lt_trans above below) (Nat.lt_irrefl _)
    · rcases List.mem_cons.mp after with same | later
      · exact absurd (same ▸ below) (Nat.lt_irrefl _)
      · exact later

abbrev PriorityTable (α : Type) : Type := Priority → α

def PriorityTable.set {α : Type} (table : PriorityTable α) (priority : Priority) (value : α) :
    PriorityTable α :=
  Function.update table priority value

@[simp] theorem PriorityTable.set_self {α : Type} (table : PriorityTable α) (priority : Priority)
    (value : α) : table.set priority value priority = value :=
  Function.update_self ..

@[simp] theorem PriorityTable.set_other {α : Type} {table : PriorityTable α}
    {priority other : Priority} {value : α} (different : other ≠ priority) :
    table.set priority value other = table other :=
  Function.update_of_ne different ..

@[simp] theorem PriorityTable.set_set {α : Type} (table : PriorityTable α) (priority : Priority)
    (first second : α) : (table.set priority first).set priority second = table.set priority second :=
  Function.update_idem ..

theorem PriorityTable.set_apply {α : Type} (table : PriorityTable α) (priority other : Priority)
    (value : α) :
    table.set priority value other = if other = priority then value else table other :=
  Function.update_apply ..

/-- What holds of all entries and of a new one holds of all entries afterwards. -/
theorem PriorityTable.forall_set {α : Type} {table : PriorityTable α} (property : Priority → α → Prop)
    (old : ∀ priority, property priority (table priority)) {priority : Priority} {value : α}
    (new : property priority value) (other : Priority) :
    property other (table.set priority value other) :=
  (Function.forall_update_iff table property).mpr ⟨new, fun other _ => old other⟩ other

theorem PriorityTable.forall_mem_push {α : Type} {table : PriorityTable (List α)}
    {property : Priority → α → Prop}
    (old : ∀ priority, ∀ item ∈ table priority, property priority item) {priority : Priority}
    {new : α} (holds : property priority new) :
    ∀ other, ∀ item ∈ table.set priority (table priority ++ [new]) other, property other item := by
  refine forall_set (fun priority (items : List α) => ∀ item ∈ items, property priority item) old ?_
  intro item member
  rcases List.mem_append.mp member with earlier | last
  · exact old priority item earlier
  · exact List.mem_singleton.mp last ▸ holds

theorem PriorityTable.forall_mem_pop {α : Type} {table : PriorityTable (List α)}
    {property : Priority → α → Prop}
    (old : ∀ priority, ∀ item ∈ table priority, property priority item) {priority : Priority}
    {first : α} {rest : List α} (front : table priority = first :: rest) :
    ∀ other, ∀ item ∈ table.set priority rest other, property other item := by
  refine forall_set (fun priority (items : List α) => ∀ item ∈ items, property priority item) old ?_
  intro item member
  exact old priority item (front ▸ List.mem_cons_of_mem _ member)

end EdfPipeline
