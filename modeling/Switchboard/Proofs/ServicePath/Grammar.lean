import Switchboard.Proofs.ServicePath.Text

/-!
# Which texts are paths

Segments form a path when there are two or more of them, none is empty and none holds a separator,
and otherwise the first that is at fault is reported. The pieces of a text hold no separators, so
only their number and the empty ones among them matter. The main result,
`ServicePath.path_grammar`, says which segments and which texts are paths, what the others are
reported for, and that paths, segments and texts determine each other.
-/

namespace Switchboard

theorem isSegment_iff {segment : String} :
    IsSegment segment ↔ segment ≠ "" ∧ pathSeparator ∉ segment.toList := by
  simp [IsSegment, hasSeparator]

namespace ServicePath

variable {segments : List String} {path : ServicePath} {index : Nat}

theorem segmentFault_eq_emptySegment_iff {start : Nat} {segment : String} :
    segmentFault start segment = some (.emptySegment index) ↔ start = index ∧ segment = "" := by
  unfold segmentFault
  by_cases hempty : segment = ""
  · simp [hempty]
  · cases hasSeparator segment <;> simp [hempty]

theorem segmentFault_eq_separatorInSegment_iff {start : Nat} {segment : String} :
    segmentFault start segment = some (.separatorInSegment index) ↔
      start = index ∧ segment ≠ "" ∧ pathSeparator ∈ segment.toList := by
  unfold segmentFault
  by_cases hempty : segment = ""
  · simp [hempty]
  · cases hseparator : hasSeparator segment <;>
      simp_all [hasSeparator]

theorem segmentFault_ne_tooShort (start count : Nat) (segment : String) :
    segmentFault start segment ≠ some (.tooShort count) := by
  unfold segmentFault
  split_ifs <;> simp

/-- The fault of a list is that of its first segment that has one. -/
theorem firstFault_eq_some_iff {start : Nat} {fault : PathError} :
    firstFault start segments = some fault ↔
      ∃ index segment, segments[index]? = some segment ∧
        (∀ earlier ∈ segments.take index, IsSegment earlier) ∧
        segmentFault (start + index) segment = some fault := by
  induction segments generalizing start with
  | nil => simp [firstFault]
  | cons first segments ih =>
      cases hfirst : segmentFault start first with
      | some found =>
          rw [firstFault, hfirst]
          constructor
          · intro h
            exact ⟨0, first, rfl, by simp, hfirst.trans h⟩
          · rintro ⟨index, segment, hsegment, hearlier, hfault⟩
            cases index with
            | zero =>
                obtain rfl : first = segment := Option.some.inj hsegment
                exact hfirst.symm.trans hfault
            | succ index =>
                have hvalid : segmentFault start first = none :=
                  segmentFault_eq_none_iff.2 (hearlier first List.mem_cons_self)
                simp [hvalid] at hfirst
      | none =>
          rw [firstFault, hfirst]
          show firstFault (start + 1) segments = some fault ↔ _
          rw [ih]
          constructor
          · rintro ⟨index, segment, hsegment, hearlier, hfault⟩
            refine ⟨index + 1, segment, hsegment, ?_, by rwa [Nat.add_right_comm] at hfault⟩
            rw [List.take_succ_cons, List.forall_mem_cons]
            exact ⟨segmentFault_eq_none_iff.1 hfirst, hearlier⟩
          · rintro ⟨index, segment, hsegment, hearlier, hfault⟩
            cases index with
            | zero =>
                obtain rfl : first = segment := Option.some.inj hsegment
                simp [hfirst] at hfault
            | succ index =>
                rw [List.take_succ_cons, List.forall_mem_cons] at hearlier
                exact ⟨index, segment, hsegment, hearlier.2, by rwa [Nat.add_right_comm]⟩

/-- Too few segments are reported as such, and of enough segments the first fault. -/
theorem ofSegments_eq_error_iff {fault : PathError} :
    ofSegments segments = .error fault ↔
      segments.length < 2 ∧ fault = .tooShort segments.length ∨
        2 ≤ segments.length ∧ firstFault 0 segments = some fault := by
  match segments with
  | [] => simp [ofSegments, eq_comm]
  | [_] => simp [ofSegments, eq_comm]
  | service :: next :: rest =>
      simp only [ofSegments]
      split
      case h_1 found hfound => simp [hfound]
      case h_2 hnone => simp [hnone]

theorem ofSegments_eq_ok_iff : ofSegments segments = .ok path ↔ path.segments = segments := by
  constructor
  · intro h
    match segments with
    | [] => exact nomatch h
    | [_] => exact nomatch h
    | service :: next :: rest =>
        cases hfault : firstFault 0 (service :: next :: rest) with
        | some fault =>
            have herror : ofSegments (service :: next :: rest) = .error fault :=
              ofSegments_eq_error_iff.2 (.inr ⟨by simp, hfault⟩)
            exact nomatch h.symm.trans herror
        | none =>
            obtain ⟨found, hfound, hsegments⟩ := exists_ofSegments (firstFault_eq_none_iff.1 hfault)
            obtain rfl : path = found := Except.ok.inj (h.symm.trans hfound)
            exact hsegments
  · rintro rfl
    exact ofSegments_segments path

theorem exists_ofSegments_iff :
    (∃ path, ofSegments segments = .ok path) ↔
      2 ≤ segments.length ∧ ∀ segment ∈ segments, IsSegment segment := by
  constructor
  · rintro ⟨path, hpath⟩
    obtain rfl := ofSegments_eq_ok_iff.1 hpath
    exact ⟨by simp [ServicePath.segments], path.isSegment⟩
  · rintro ⟨hlength, hsegments⟩
    cases segments with
    | nil => simp at hlength
    | cons service rest =>
        cases rest with
        | nil => simp at hlength
        | cons next rest =>
            obtain ⟨path, hpath, -⟩ := exists_ofSegments hsegments
            exact ⟨path, hpath⟩

theorem ofSegments_eq_tooShort_iff {count : Nat} :
    ofSegments segments = .error (.tooShort count) ↔ segments.length = count ∧ count < 2 := by
  rw [ofSegments_eq_error_iff, firstFault_eq_some_iff]
  constructor
  · rintro (⟨hlength, hcount⟩ | ⟨-, _, segment, -, -, hfault⟩)
    · obtain rfl := PathError.tooShort.inj hcount
      exact ⟨rfl, hlength⟩
    · exact absurd hfault (segmentFault_ne_tooShort _ _ _)
  · rintro ⟨rfl, hlength⟩
    exact .inl ⟨hlength, rfl⟩

/-- Of enough segments the first one at fault is reported. -/
theorem ofSegments_eq_fault_iff {fault : PathError} (h : ∀ count, fault ≠ .tooShort count) :
    ofSegments segments = .error fault ↔ 2 ≤ segments.length ∧
      ∃ index segment, segments[index]? = some segment ∧
        (∀ earlier ∈ segments.take index, IsSegment earlier) ∧
        segmentFault index segment = some fault := by
  simp only [ofSegments_eq_error_iff, h, and_false, false_or, firstFault_eq_some_iff, Nat.zero_add]

theorem ofSegments_eq_emptySegment_iff :
    ofSegments segments = .error (.emptySegment index) ↔ 2 ≤ segments.length ∧
      segments[index]? = some "" ∧ ∀ earlier ∈ segments.take index, IsSegment earlier := by
  rw [ofSegments_eq_fault_iff (by simp)]
  refine and_congr_right fun _ => ⟨?_, ?_⟩
  · rintro ⟨_, segment, hsegment, hearlier, hfault⟩
    obtain ⟨rfl, rfl⟩ := segmentFault_eq_emptySegment_iff.1 hfault
    exact ⟨hsegment, hearlier⟩
  · rintro ⟨hsegment, hearlier⟩
    exact ⟨index, "", hsegment, hearlier, segmentFault_eq_emptySegment_iff.2 ⟨rfl, rfl⟩⟩

theorem ofSegments_eq_separatorInSegment_iff :
    ofSegments segments = .error (.separatorInSegment index) ↔ 2 ≤ segments.length ∧
      (∃ segment, segments[index]? = some segment ∧
        segment ≠ "" ∧ pathSeparator ∈ segment.toList) ∧
      ∀ earlier ∈ segments.take index, IsSegment earlier := by
  rw [ofSegments_eq_fault_iff (by simp)]
  refine and_congr_right fun _ => ⟨?_, ?_⟩
  · rintro ⟨_, segment, hsegment, hearlier, hfault⟩
    obtain ⟨rfl, hnonempty, hmem⟩ := segmentFault_eq_separatorInSegment_iff.1 hfault
    exact ⟨⟨segment, hsegment, hnonempty, hmem⟩, hearlier⟩
  · rintro ⟨⟨segment, hsegment, hnonempty, hmem⟩, hearlier⟩
    exact ⟨index, segment, hsegment, hearlier,
      segmentFault_eq_separatorInSegment_iff.2 ⟨rfl, hnonempty, hmem⟩⟩

/-- No piece of a text holds a separator. -/
theorem separator_not_mem_of_mem_pieces {chars piece : List Char} (h : piece ∈ pieces chars) :
    pathSeparator ∉ piece := by
  fun_induction pieces chars generalizing piece with
  | case1 => simp_all
  | case2 chars ih =>
      rcases List.mem_cons.1 h with rfl | hrest
      · simp
      · exact ih hrest
  | case3 char chars hchar hpieces ih =>
      obtain rfl := List.mem_singleton.1 h
      simpa using Ne.symm hchar
  | case4 char chars hchar first rest hpieces ih =>
      rw [hpieces] at ih
      rcases List.mem_cons.1 h with rfl | hrest
      · simp [Ne.symm hchar, ih List.mem_cons_self]
      · exact ih (List.mem_cons_of_mem _ hrest)

/-- The pieces of a text, as they stand between its separators. -/
theorem parse_eq (text : String) :
    parse text = ofSegments ((text.toList.splitOn pathSeparator).map String.ofList) := by
  rw [parse, pieces_eq_splitOn]

/-- A piece of a text is a segment unless it is empty. -/
theorem isSegment_piece_iff {text piece : String}
    (h : piece ∈ (text.toList.splitOn pathSeparator).map String.ofList) :
    IsSegment piece ↔ piece ≠ "" := by
  obtain ⟨chars, hchars, rfl⟩ := List.mem_map.1 h
  rw [← pieces_eq_splitOn] at hchars
  rw [isSegment_iff, String.toList_ofList]
  exact and_iff_left (separator_not_mem_of_mem_pieces hchars)

/-- A path that was read from a text is shown as this text. -/
theorem display_of_parse {text : String} (h : parse text = .ok path) : path.display = text := by
  rw [parse_eq, ofSegments_eq_ok_iff] at h
  have hpieces : (text.toList.splitOn pathSeparator).map (String.toList ∘ String.ofList) =
      text.toList.splitOn pathSeparator := by
    rw [show String.toList ∘ String.ofList = id from funext fun _ => String.toList_ofList,
      List.map_id]
  rw [← String.toList_inj, display, String.toList_intercalate, h, List.map_map, hpieces]
  exact List.intercalate_splitOn pathSeparator

/-- A text is a path when it has two or more pieces and none of them is empty; its pieces are then
the segments of the path, and it is what the path is shown as. Otherwise the number of its pieces is
reported if there is only one, or else the first empty one, and never a separator. A list of
segments is a path when it has two or more elements, none empty and none with a separator, and
otherwise their number is reported or the first element at fault. The segments of a path are its
service, its sub-services and its method, and the path is read back from its text. -/
theorem path_grammar :
    (∀ text : String,
      let pieces := (text.toList.splitOn '/').map String.ofList
      ((∃ path, parse text = .ok path) ↔ 2 ≤ pieces.length ∧ ∀ piece ∈ pieces, piece ≠ "") ∧
      (∀ path, parse text = .ok path → path.segments = pieces ∧ path.display = text) ∧
      (∀ count, parse text = .error (.tooShort count) ↔ pieces.length = count ∧ count < 2) ∧
      (∀ index, parse text = .error (.emptySegment index) ↔ 2 ≤ pieces.length ∧
        pieces[index]? = some "" ∧ ∀ earlier ∈ pieces.take index, earlier ≠ "") ∧
      ∀ index, parse text ≠ .error (.separatorInSegment index)) ∧
    ∀ segments : List String,
      ((∃ path, ofSegments segments = .ok path) ↔ 2 ≤ segments.length ∧
        ∀ segment ∈ segments, segment ≠ "" ∧ '/' ∉ segment.toList) ∧
      (∀ path, ofSegments segments = .ok path → path.segments = segments ∧
        segments = path.service :: (path.subservices ++ [path.method]) ∧
        parse path.display = .ok path) ∧
      (∀ count, ofSegments segments = .error (.tooShort count) ↔
        segments.length = count ∧ count < 2) ∧
      (∀ index, ofSegments segments = .error (.emptySegment index) ↔ 2 ≤ segments.length ∧
        segments[index]? = some "" ∧
        ∀ earlier ∈ segments.take index, earlier ≠ "" ∧ '/' ∉ earlier.toList) ∧
      ∀ index, ofSegments segments = .error (.separatorInSegment index) ↔ 2 ≤ segments.length ∧
        (∃ segment, segments[index]? = some segment ∧
          segment ≠ "" ∧ '/' ∈ segment.toList) ∧
        ∀ earlier ∈ segments.take index, earlier ≠ "" ∧ '/' ∉ earlier.toList := by
  rw [show '/' = pathSeparator from rfl]
  constructor
  · intro text pieces
    have hvalid : ∀ piece ∈ pieces, IsSegment piece ↔ piece ≠ "" := fun _ => isSegment_piece_iff
    rw [parse_eq]
    refine ⟨?_, ?_, fun _ => ofSegments_eq_tooShort_iff, ?_, ?_⟩
    · rw [exists_ofSegments_iff]
      exact and_congr_right fun _ => forall₂_congr hvalid
    · intro path hpath
      exact ⟨ofSegments_eq_ok_iff.1 hpath, display_of_parse (parse_eq text ▸ hpath)⟩
    · intro index
      rw [ofSegments_eq_emptySegment_iff]
      exact and_congr_right fun _ => and_congr_right fun _ =>
        forall₂_congr fun piece hmem => hvalid piece (List.mem_of_mem_take hmem)
    · intro index hfault
      obtain ⟨-, ⟨piece, hpiece, hnonempty, hmem⟩, -⟩ :=
        ofSegments_eq_separatorInSegment_iff.1 hfault
      have hsegment := (hvalid piece (List.mem_of_getElem? hpiece)).2 hnonempty
      exact (isSegment_iff.1 hsegment).2 hmem
  · intro segments
    simp only [← isSegment_iff]
    refine ⟨exists_ofSegments_iff, ?_, fun _ => ofSegments_eq_tooShort_iff,
      fun _ => ofSegments_eq_emptySegment_iff, fun _ => ofSegments_eq_separatorInSegment_iff⟩
    intro path hpath
    have hsegments := ofSegments_eq_ok_iff.1 hpath
    exact ⟨hsegments, hsegments.symm, parse_display path⟩

/-- Separators at both ends and in a row make empty pieces, of which the first is reported. A
separator inside a segment is reported before an empty segment behind it. -/
theorem path_grammar_calculator :
    (∃ path, parse "Calculator/Scientific/Pow" = .ok path ∧
      path.segments = ["Calculator", "Scientific", "Pow"] ∧
      path.display = "Calculator/Scientific/Pow") ∧
    parse "Calculator//Add/" = .error (.emptySegment 1) ∧
    ofSegments ["Calculator", "Math/Add", ""] = .error (.separatorInSegment 1) := by
  obtain ⟨htexts, hsegments⟩ := path_grammar
  refine ⟨?_, ?_, ?_⟩
  · obtain ⟨hok, hread, -⟩ := htexts "Calculator/Scientific/Pow"
    obtain ⟨path, hpath⟩ := hok.2 (by decide +kernel)
    obtain ⟨hpieces, hdisplay⟩ := hread path hpath
    exact ⟨path, hpath, hpieces.trans (by decide +kernel), hdisplay⟩
  · obtain ⟨-, -, -, hempty, -⟩ := htexts "Calculator//Add/"
    exact (hempty 1).2 (by decide +kernel)
  · obtain ⟨-, -, -, -, hseparator⟩ := hsegments ["Calculator", "Math/Add", ""]
    exact (hseparator 1).2 ⟨by decide, ⟨"Math/Add", rfl, by decide +kernel⟩, by decide +kernel⟩

end ServicePath

end Switchboard
