import Switchboard.Proofs.Codec.Lawful

/-!
# What a codec may do with a writer

A `Script` is what a codec does with a writer: some puts, one after the other up to the first that
fails, and then a success or a failure of its own. It is `Exact` when it succeeds in as many bytes
as were announced, and `Script.Deviates` says which failure comes of it when it is not. The main
result, `Script.exact_or_deviates`, says that every script does one or the other.
-/

namespace Switchboard

/-- The strings of bytes that a codec puts, and the failure that it ends with if it does not succeed
with the last of them. -/
structure Script where
  puts : List Bytes
  failure : Option CodecError

namespace Script

/-- Everything that the script puts. -/
def bytes (script : Script) : Bytes := script.puts.flatten

/-- Puts strings of bytes one after the other. -/
def putAll : List Bytes → WriteM Unit
  | [] => pure ()
  | bytes :: puts => do
      Writer.put bytes
      putAll puts

/-- Follows the script. A put that fails ends it. -/
def run (script : Script) : WriteM Unit := do
  putAll script.puts
  match script.failure with
  | none => pure ()
  | some error => throw error

/-- One script after the other. There is nothing behind a failure. -/
def andThen (first second : Script) : Script :=
  match first.failure with
  | some _ => first
  | none => ⟨first.puts ++ second.puts, second.failure⟩

/-- The script succeeds, and it puts as many bytes as were announced. -/
structure Exact (script : Script) (size : Nat) : Prop where
  succeeds : script.failure = none
  length_eq : script.bytes.length = size

/-- `script.Deviates size later error` says that the script is not exact and fails the response with
`error`, where `later` is the room announced by the fields behind it: by its own failure, by a wrong
size as long as what it puts fits into the room, or else by its first put that does not fit. -/
inductive Deviates (script : Script) (size later : Nat) : CodecError → Prop where
  | failed (error) : script.bytes.length ≤ size + later → script.failure = some error →
      Deviates script size later error
  | mismatched : script.bytes.length ≤ size + later → script.failure = none →
      script.bytes.length ≠ size →
      Deviates script size later (.sizeMismatch size script.bytes.length)
  | overran (before put after) : script.puts = before ++ put :: after →
      before.flatten.length ≤ size + later →
      size + later < before.flatten.length + put.length →
      Deviates script size later
        (.bufferOverrun put.length (size + later - before.flatten.length))

theorem putAll_of_le {puts : List Bytes} {writer : Writer}
    (h : puts.flatten.length ≤ writer.remaining) :
    putAll puts writer = .ok () (writer.append puts.flatten) := by
  induction puts generalizing writer with
  | nil =>
      rw [List.flatten_nil, Writer.append_nil]
      rfl
  | cons bytes puts ih =>
      rw [List.flatten_cons, List.length_append] at h
      have hrest : puts.flatten.length ≤ (writer.append bytes).remaining := by
        rw [Writer.remaining_append]
        omega
      rw [List.flatten_cons, ← Writer.append_append]
      exact (Action.bind_of_ok (Writer.put_of_le (by omega))).trans (ih hrest)

/-- Puts end with the first that does not fit. -/
theorem putAll_of_lt (before after : List Bytes) (put : Bytes) (writer : Writer)
    (hbefore : before.flatten.length ≤ writer.remaining)
    (hput : writer.remaining < before.flatten.length + put.length) :
    putAll (before ++ put :: after) writer =
      .error (.bufferOverrun put.length (writer.remaining - before.flatten.length))
        (writer.append before.flatten) := by
  induction before generalizing writer with
  | nil =>
      rw [List.flatten_nil, List.length_nil, Nat.zero_add] at hput
      rw [List.flatten_nil, Writer.append_nil]
      exact Action.bind_of_error (Writer.put_of_lt hput)
  | cons bytes before ih =>
      rw [List.flatten_cons, List.length_append] at hbefore hput
      have hrest := ih (writer.append bytes) (by rw [Writer.remaining_append]; omega)
        (by rw [Writer.remaining_append]; omega)
      rw [Writer.remaining_append, Writer.append_append, Nat.sub_sub] at hrest
      rw [List.flatten_cons, List.length_append]
      exact (Action.bind_of_ok (Writer.put_of_le (by omega))).trans hrest

/-- Among puts that do not fit as a whole there is a first that does not fit. -/
theorem exists_overrun (puts : List Bytes) (room : Nat) (h : room < puts.flatten.length) :
    ∃ before put after, puts = before ++ put :: after ∧ before.flatten.length ≤ room ∧
      room < before.flatten.length + put.length := by
  induction puts generalizing room with
  | nil => exact nomatch h
  | cons bytes puts ih =>
      rw [List.flatten_cons, List.length_append] at h
      by_cases hfits : bytes.length ≤ room
      · obtain ⟨before, put, after, rfl, hbefore, hput⟩ := ih (room - bytes.length) (by omega)
        refine ⟨bytes :: before, put, after, rfl, ?_, ?_⟩ <;>
          rw [List.flatten_cons, List.length_append] <;> omega
      · exact ⟨[], bytes, puts, rfl, Nat.zero_le _, by simpa using hfits⟩

theorem run_of_le {script : Script} {writer : Writer} (h : script.bytes.length ≤ writer.remaining) :
    script.run writer = match script.failure with
      | none => .ok () (writer.append script.bytes)
      | some error => .error error (writer.append script.bytes) := by
  unfold run
  rw [Action.bind_of_ok (putAll_of_le h)]
  cases script.failure <;> rfl

theorem putAll_append (puts more : List Bytes) :
    putAll (puts ++ more) = putAll puts >>= fun _ => putAll more := by
  induction puts with
  | nil => rfl
  | cons bytes puts ih => simp only [List.cons_append, putAll, ih, bind_assoc]

/-- A script that goes on as another is followed as both of them, one after the other. -/
theorem run_andThen (first second : Script) :
    (first.andThen second).run = first.run >>= fun _ => second.run := by
  obtain ⟨puts, failure⟩ := first
  cases failure with
  | none => simp only [andThen, run, putAll_append, bind_assoc, pure_bind]
  | some error =>
      funext writer
      simp only [andThen, run, bind_assoc]
      cases hputs : putAll puts writer with
      | ok _ after =>
          rw [Action.bind_of_ok hputs, Action.bind_of_ok hputs]
          rfl
      | error fault after => rw [Action.bind_of_error hputs, Action.bind_of_error hputs]

theorem exact_or_deviates (script : Script) (size later : Nat) :
    script.Exact size ∨ ∃ error, script.Deviates size later error := by
  by_cases hroom : script.bytes.length ≤ size + later
  · cases hfailure : script.failure with
    | some error => exact .inr ⟨error, .failed error hroom hfailure⟩
    | none =>
        by_cases hsize : script.bytes.length = size
        · exact .inl ⟨hfailure, hsize⟩
        · exact .inr ⟨_, .mismatched hroom hfailure hsize⟩
  · obtain ⟨before, put, after, hputs, hbefore, hput⟩ :=
      exists_overrun _ _ (Nat.lt_of_not_le hroom)
    exact .inr ⟨_, .overran before put after hputs hbefore hput⟩

end Script

/-- What a codec puts may depend on the position and on the room that it finds. Behind its first put
it can tell both by itself, so it is enough to know what it does for those at which it begins. -/
abbrev Plan := (position room : Nat) → Script

end Switchboard
