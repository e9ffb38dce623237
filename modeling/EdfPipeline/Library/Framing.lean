import Mathlib.Data.List.Basic

/-!
# Lines on a stream

Messages are written one after the other, each ended by a separator, and read
line by line from a part of the stream. However the stream is cut, a complete
line is the next message, and what is left over is the beginning of the one
after it.
-/

set_option autoImplicit false

namespace Framing

variable {Symbol : Type}

/-- The messages as they are written. -/
def frames (separator : Symbol) (messages : List (List Symbol)) : List Symbol :=
  messages.flatMap fun message => message ++ [separator]

theorem frames_nil (separator : Symbol) : frames separator [] = [] := rfl

theorem frames_cons (separator : Symbol) (message : List Symbol) (rest : List (List Symbol)) :
    frames separator (message :: rest) = message ++ separator :: frames separator rest := by
  simp [frames]

theorem frames_append (separator : Symbol) (first second : List (List Symbol)) :
    frames separator (first ++ second) = frames separator first ++ frames separator second :=
  List.flatMap_append

theorem frames_mono {separator : Symbol} {first second : List (List Symbol)}
    (grown : first <+: second) : frames separator first <+: frames separator second := by
  obtain ⟨later, rfl⟩ := grown
  rw [frames_append]
  exact List.prefix_append _ _

/-- Without a separator a part of a stream does not reach past the first message. -/
theorem prefix_message {separator : Symbol} {part message rest : List Symbol}
    (plain : separator ∉ part) (within : part <+: message ++ separator :: rest) : part <+: message := by
  rcases List.prefix_or_prefix_of_prefix within (List.prefix_append message _) with inside | ⟨more, rfl⟩
  · exact inside
  · rw [List.prefix_append_right_inj] at within
    cases more with
    | nil =>
        exact ⟨[], by rw [List.append_nil, List.append_nil]⟩
    | cons symbol more =>
        obtain ⟨rfl, _⟩ := List.cons_prefix_cons.mp within
        exact absurd (List.mem_append_right message List.mem_cons_self) plain

variable [DecidableEq Symbol]

/-- The first line with its separator, and what comes after it. -/
def readLine (separator : Symbol) : List Symbol → Option (List Symbol × List Symbol)
  | [] => none
  | symbol :: rest =>
      if symbol = separator then some ([symbol], rest)
      else (readLine separator rest).map fun (line, after) => (symbol :: line, after)

theorem readLine_frame {separator : Symbol} {message rest : List Symbol}
    (plain : separator ∉ message) :
    readLine separator (message ++ separator :: rest) = some (message ++ [separator], rest) := by
  induction message with
  | nil => simp [readLine]
  | cons symbol message ih =>
      obtain ⟨other, later⟩ := not_or.mp (List.mem_cons.not.mp plain)
      rw [List.cons_append, readLine, if_neg (Ne.symm other), ih later]
      rfl

theorem readLine_eq_some {separator : Symbol} {buffer line rest : List Symbol}
    (found : readLine separator buffer = some (line, rest)) :
    ∃ message, separator ∉ message ∧ line = message ++ [separator] ∧ buffer = line ++ rest := by
  induction buffer generalizing line with
  | nil => cases found
  | cons symbol buffer ih =>
      rw [readLine] at found
      split at found
      · rename_i same
        obtain ⟨rfl, rfl⟩ := Option.some.inj found
        exact ⟨[], List.not_mem_nil, by rw [same]; rfl, rfl⟩
      · rename_i other
        obtain ⟨⟨inner, after⟩, here, pair⟩ := Option.map_eq_some_iff.mp found
        obtain ⟨rfl, rfl⟩ := Prod.mk.inj pair
        obtain ⟨message, plain, rfl, whole⟩ := ih here
        refine ⟨symbol :: message, ?_, rfl, by rw [whole]; rfl⟩
        exact List.mem_cons.not.mpr (not_or.mpr ⟨Ne.symm other, plain⟩)

theorem readLine_eq_none {separator : Symbol} {buffer : List Symbol}
    (nothing : readLine separator buffer = none) : separator ∉ buffer := by
  induction buffer with
  | nil => exact List.not_mem_nil
  | cons symbol buffer ih =>
      rw [readLine] at nothing
      split at nothing
      · cases nothing
      · rename_i other
        exact List.mem_cons.not.mpr (not_or.mpr ⟨Ne.symm other, ih (Option.map_eq_none_iff.mp nothing)⟩)

/-- A complete line is the next message. -/
theorem readLine_next {separator : Symbol} {messages : List (List Symbol)}
    {buffer line rest : List Symbol} (plain : ∀ message ∈ messages, separator ∉ message)
    (within : buffer <+: frames separator messages)
    (found : readLine separator buffer = some (line, rest)) :
    ∃ message later, messages = message :: later ∧ line = message ++ [separator] ∧
      rest <+: frames separator later := by
  obtain ⟨inner, innerPlain, rfl, rfl⟩ := readLine_eq_some found
  cases messages with
  | nil =>
      rw [frames_nil, List.prefix_nil] at within
      simp at within
  | cons message later =>
      have own := plain message List.mem_cons_self
      rw [frames_cons] at within
      have first := @readLine_frame _ _ _ _ (frames separator later) own
      obtain ⟨after, whole⟩ := within
      rw [← whole, List.append_assoc, List.append_assoc, List.singleton_append,
        readLine_frame innerPlain] at first
      obtain ⟨same, remaining⟩ := Prod.mk.inj (Option.some.inj first)
      exact ⟨message, later, rfl, same, ⟨after, remaining⟩⟩

/-- What is left over belongs to the next message. -/
theorem leftover {separator : Symbol} {messages : List (List Symbol)} {buffer : List Symbol}
    (within : buffer <+: frames separator messages) (nothing : readLine separator buffer = none) :
    buffer = [] ∨ ∃ message later, messages = message :: later ∧ buffer <+: message := by
  cases messages with
  | nil => exact .inl (List.prefix_nil.mp within)
  | cons message later =>
      rw [frames_cons] at within
      exact .inr ⟨message, later, rfl, prefix_message (readLine_eq_none nothing) within⟩

end Framing
