import Mathlib
import Switchboard.ServicePath

/-!
# Paths and their texts

A path is determined by its segments, and these are the pieces between the separators of its text.
The main result, `ServicePath.parse_display`, says that every path is read back from its text.
-/

namespace Switchboard

theorem IsSegment.not_mem {segment : String} (h : IsSegment segment) :
    pathSeparator ∉ segment.toList := by
  have hseparator := h.2
  unfold hasSeparator at hseparator
  simpa using hseparator

namespace ServicePath

theorem segments_injective {path other : ServicePath} (h : path.segments = other.segments) :
    path = other := by
  obtain ⟨service, subservices, method, _⟩ := path
  obtain ⟨otherService, otherSubservices, otherMethod, _⟩ := other
  obtain ⟨rfl, htail⟩ := List.cons.inj h
  obtain ⟨rfl, hlast⟩ := List.append_inj' htail rfl
  obtain rfl : method = otherMethod := List.singleton_inj.1 hlast
  rfl

/-- Two or more segments form a path. -/
theorem exists_ofSegments {service next : String} {rest : List String}
    (h : ∀ segment ∈ service :: next :: rest, IsSegment segment) :
    ∃ path, ofSegments (service :: next :: rest) = .ok path ∧
      path.segments = service :: next :: rest := by
  have hfault : firstFault 0 (service :: next :: rest) = none := firstFault_eq_none_iff.2 h
  simp only [ofSegments]
  split
  case h_1 fault hfaulty => exact nomatch hfault.symm.trans hfaulty
  case h_2 => exact ⟨_, rfl, by rw [segments, List.dropLast_concat_getLast]⟩

theorem ofSegments_segments (path : ServicePath) : ofSegments path.segments = .ok path := by
  obtain ⟨next, rest, hsegments⟩ : ∃ next rest, path.segments = path.service :: next :: rest := by
    unfold segments
    cases path.subservices with
    | nil => exact ⟨path.method, [], rfl⟩
    | cons next rest => exact ⟨next, rest ++ [path.method], rfl⟩
  have hvalid : ∀ segment ∈ path.service :: next :: rest, IsSegment segment :=
    hsegments ▸ path.isSegment
  obtain ⟨other, hother, hsame⟩ := exists_ofSegments hvalid
  rw [hsegments, hother, segments_injective (hsame.trans hsegments.symm)]

/-- The pieces of a text are what it splits into at the separators. -/
theorem pieces_eq_splitOn (chars : List Char) : pieces chars = chars.splitOn pathSeparator := by
  induction chars with
  | nil => rfl
  | cons char chars ih =>
      rw [pieces, ih, List.splitOn_eq_splitOnP, List.splitOn_eq_splitOnP,
        List.splitOnP_cons_eq_if_modifyHead]
      by_cases hchar : char = pathSeparator
      · simp [hchar]
      · cases hpieces : chars.splitOnP (· == pathSeparator) with
        | nil => exact absurd hpieces (List.splitOnP_ne_nil _ _)
        | cons piece rest => simp [hchar]

/-- Every path is read back from its text. -/
theorem parse_display (path : ServicePath) : parse path.display = .ok path := by
  have hpieces : pieces path.display.toList = path.segments.map String.toList := by
    rw [pieces_eq_splitOn, display, String.toList_intercalate]
    refine List.splitOn_intercalate pathSeparator ?_ (by simp [segments])
    intro chars hmem
    obtain ⟨segment, hsegment, rfl⟩ := List.mem_map.1 hmem
    exact (path.isSegment segment hsegment).not_mem
  have htexts : path.segments.map (String.ofList ∘ String.toList) = path.segments := by
    rw [show String.ofList ∘ String.toList = id from funext fun _ => String.ofList_toList,
      List.map_id]
  rw [parse, hpieces, List.map_map, htexts, ofSegments_segments]

end ServicePath

end Switchboard
