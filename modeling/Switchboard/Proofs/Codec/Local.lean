import Switchboard.Proofs.Codec.Canonical

/-!
# Local readers

A reading action is `Local` when it looks at no bytes but those that it reads: it reads the same
from them anywhere and whatever follows them, and a failure does not depend on the position either,
nor, unless it is an underrun, on what follows. What is built from local actions is local, and so
are the decoders of words, truth values, texts, strings of bytes, and lists of anything with a local
decoder. The main result, `ReadM.Local.underrun_of_cut`, says that a local action that reads all of
its input finds every shorter beginning of the input too short.
-/

namespace Switchboard

namespace ReadM

variable {α β : Type}

/-- `Local read` says that what `read` gives depends on the bytes that it reads alone, and a failure
on the bytes that are left alone. More bytes behind them do not change a failure that is no
underrun. -/
structure Local (read : ReadM α) : Prop where
  reads {reader after : Reader} {a : α} : read reader = .ok a after →
    ∃ bytes, reader.Consumes bytes after ∧
      ∀ position tail, read ⟨position, bytes ++ tail⟩ = .ok a ⟨position + bytes.length, tail⟩
  fails {reader after : Reader} {error : CodecError} : read reader = .error error after →
    ∀ position, ∃ final, read ⟨position, reader.rest⟩ = .error error final
  refuses {reader after : Reader} {error : CodecError} : read reader = .error error after →
    error.isUnderrun = false →
    ∀ position tail, ∃ final, read ⟨position, reader.rest ++ tail⟩ = .error error final

namespace Local

theorem pure (a : α) : Local (Pure.pure a : ReadM α) where
  reads h := by
    cases h
    exact ⟨[], Reader.consumes_nil _, fun _ _ => rfl⟩
  fails := nofun
  refuses := nofun

theorem throw (error : CodecError) : Local (MonadExcept.throw error : ReadM α) where
  reads := nofun
  fails h _ := by
    cases h
    exact ⟨_, rfl⟩
  refuses h _ _ _ := by
    cases h
    exact ⟨_, rfl⟩

theorem take (count : Nat) : Local (Reader.take count) where
  reads h := by
    obtain ⟨rfl, hconsumes⟩ := Reader.consumes_of_take h
    exact ⟨_, hconsumes, fun position tail => Reader.take_append position _ tail⟩
  fails {reader after error} h position := by
    by_cases hroom : count ≤ reader.remaining
    · rw [Reader.take_of_le hroom] at h
      exact nomatch h
    · rw [Reader.take_of_lt (Nat.lt_of_not_le hroom)] at h
      cases h
      exact ⟨_, Reader.take_of_lt (Nat.lt_of_not_le hroom)⟩
  refuses {reader after error} h hother := by
    by_cases hroom : count ≤ reader.remaining
    · rw [Reader.take_of_le hroom] at h
      exact nomatch h
    · rw [Reader.take_of_lt (Nat.lt_of_not_le hroom)] at h
      cases h
      exact nomatch hother

/-- Two local actions one after the other. The second starts behind the bytes of the first, wherever
these stand. -/
theorem bind {read : ReadM α} {next : α → ReadM β} (h : Local read) (hnext : ∀ a, Local (next a)) :
    Local (read >>= next) where
  reads hread := by
    obtain ⟨a, middle, hfirst, hsecond⟩ := Action.bind_eq_ok_iff.1 hread
    obtain ⟨bytes, hconsumes, hanywhere⟩ := h.reads hfirst
    obtain ⟨more, hmore, hmoreAnywhere⟩ := (hnext a).reads hsecond
    refine ⟨bytes ++ more, hconsumes.append hmore, ?_⟩
    intro position tail
    rw [List.append_assoc, List.length_append, ← Nat.add_assoc]
    exact (Action.bind_of_ok (hanywhere position (more ++ tail))).trans (hmoreAnywhere _ tail)
  fails hread position := by
    rcases Action.bind_eq_error_iff.1 hread with hfirst | ⟨a, middle, hfirst, hsecond⟩
    · obtain ⟨final, hfinal⟩ := h.fails hfirst position
      exact ⟨final, Action.bind_of_error hfinal⟩
    · obtain ⟨bytes, hconsumes, hanywhere⟩ := h.reads hfirst
      obtain ⟨final, hfinal⟩ := (hnext a).fails hsecond (position + bytes.length)
      rw [hconsumes.rest_eq]
      exact ⟨final, (Action.bind_of_ok (hanywhere position middle.rest)).trans hfinal⟩
  refuses hread hother position tail := by
    rcases Action.bind_eq_error_iff.1 hread with hfirst | ⟨a, middle, hfirst, hsecond⟩
    · obtain ⟨final, hfinal⟩ := h.refuses hfirst hother position tail
      exact ⟨final, Action.bind_of_error hfinal⟩
    · obtain ⟨bytes, hconsumes, hanywhere⟩ := h.reads hfirst
      obtain ⟨final, hfinal⟩ := (hnext a).refuses hsecond hother (position + bytes.length) tail
      rw [hconsumes.rest_eq, List.append_assoc]
      exact ⟨final, (Action.bind_of_ok (hanywhere position (middle.rest ++ tail))).trans hfinal⟩

variable {read : ReadM α} {rest : Bytes}

/-- The position does not matter. -/
theorem outcome_eq (h : Local read) (position other : Nat) (rest : Bytes) :
    Action.outcome (read ⟨position, rest⟩) = Action.outcome (read ⟨other, rest⟩) := by
  cases hread : read ⟨position, rest⟩ with
  | ok a after =>
      obtain ⟨bytes, hconsumes, hanywhere⟩ := h.reads hread
      obtain rfl : rest = bytes ++ after.rest := hconsumes.rest_eq
      rw [hanywhere other after.rest]
      rfl
  | error error after =>
      obtain ⟨final, hfinal⟩ := h.fails hread other
      rw [hfinal]
      rfl

/-- Bytes behind the input do not matter unless the input is too short. -/
theorem outcome_append (h : Local read) {position : Nat}
    (hread : ∀ error, Action.outcome (read ⟨position, rest⟩) = .error error →
      error.isUnderrun = false) (tail : Bytes) :
    Action.outcome (read ⟨position, rest ++ tail⟩) = Action.outcome (read ⟨position, rest⟩) := by
  cases hresult : read ⟨position, rest⟩ with
  | ok a after =>
      obtain ⟨bytes, hconsumes, hanywhere⟩ := h.reads hresult
      obtain rfl : rest = bytes ++ after.rest := hconsumes.rest_eq
      rw [List.append_assoc, hanywhere position (after.rest ++ tail)]
      rfl
  | error error after =>
      rw [hresult] at hread
      obtain ⟨final, hfinal⟩ := h.refuses hresult (hread error rfl) position tail
      rw [hfinal]
      rfl

/-- When all of an input is read, any shorter beginning of it is found too short. -/
theorem underrun_of_cut (h : Local read) {position stop : Nat} {a : α} {cut more : Bytes}
    (hread : read ⟨position, cut ++ more⟩ = .ok a ⟨stop, []⟩) (hmore : more ≠ []) :
    ∃ error, Action.outcome (read ⟨position, cut⟩) = .error error ∧ error.isUnderrun = true := by
  -- Any other outcome would be the outcome for the whole input as well, which leaves no bytes.
  cases hresult : read ⟨position, cut⟩ with
  | ok b after =>
      obtain ⟨bytes, hconsumes, hanywhere⟩ := h.reads hresult
      obtain rfl : cut = bytes ++ after.rest := hconsumes.rest_eq
      rw [List.append_assoc, hanywhere position (after.rest ++ more)] at hread
      obtain ⟨-, hreader⟩ := EStateM.Result.ok.inj hread
      have hrest : after.rest ++ more = [] := congrArg Reader.rest hreader
      exact absurd (List.append_eq_nil_iff.1 hrest).2 hmore
  | error error after =>
      refine ⟨error, rfl, ?_⟩
      cases hunderrun : error.isUnderrun with
      | true => rfl
      | false =>
          obtain ⟨final, hfinal⟩ := h.refuses hresult hunderrun position more
          exact nomatch hfinal.symm.trans hread

end Local

end ReadM

namespace Codec

open ReadM

variable {α : Type}

theorem word_local [Word α] : Local (word α).decode :=
  (Local.take _).bind fun _ => .pure _

theorem bool_local : Local bool.decode := by
  refine word_local.bind ?_
  intro byte
  split
  · exact .pure false
  · exact .pure true
  · exact .throw _

theorem decodeLength_local : Local decodeLength :=
  word_local.bind fun _ => .pure _

theorem bytes_local : Local bytes.decode :=
  decodeLength_local.bind Local.take

theorem string_local : Local string.decode := by
  refine bytes_local.bind ?_
  intro data
  cases Utf8.decode data with
  | ok text => exact .pure text
  | error fault => exact .throw _

theorem erase_local {codec : Codec α} (h : Local codec.decode) (embedding : Embedding α) :
    Local (codec.erase embedding).decode :=
  h.bind fun _ => .pure _

theorem decodeItems_local {element : ValueCodec} (h : Local element.decode) (count : Nat) :
    Local (decodeItems element count) := by
  induction count with
  | zero => exact .pure []
  | succ count ih => exact h.bind fun _ => ih.bind fun _ => .pure _

theorem list_local {element : ValueCodec} (h : Local element.decode) :
    Local (list element).decode :=
  decodeLength_local.bind (decodeItems_local h)

end Codec

end Switchboard
