/-!
# Service paths

A `ServicePath` names a method: the root service, the accessors of the sub-services on the way, and
the method, such as `Calculator/Scientific/Pow`. `ServicePath.parse` splits a text at every `/`, and
`ServicePath.display` joins the segments again.
-/

namespace Switchboard

/-- The character between two segments of a path. -/
def pathSeparator : Char := '/'

/-- Whether a name holds a path separator. -/
def hasSeparator (name : String) : Bool := name.toList.contains pathSeparator

/-- Why segments do not form a path. -/
inductive PathError where
  | tooShort (segments : Nat)
  | emptySegment (index : Nat)
  | separatorInSegment (index : Nat)
  deriving DecidableEq, Repr

/-- The text of a malformed path's fault. -/
def PathError.message : PathError → String
  | tooShort segments => s!"service path needs at least 2 segments, got {segments}"
  | emptySegment index => s!"service path segment {index} is empty"
  | separatorInSegment index => s!"service path segment {index} contains '/'"

/-- A segment of a path is not empty and holds no separator. -/
def IsSegment (segment : String) : Prop := segment ≠ "" ∧ hasSeparator segment = false

instance (segment : String) : Decidable (IsSegment segment) :=
  inferInstanceAs (Decidable (_ ∧ _))

/-- A path to a method: the root service, the accessors in between, and the method. -/
structure ServicePath where
  service : String
  subservices : List String
  method : String
  isSegment : ∀ segment ∈ service :: (subservices ++ [method]), IsSegment segment
  deriving DecidableEq

namespace ServicePath

/-- The segments of a path, from the root service to the method. -/
def segments (path : ServicePath) : List String :=
  path.service :: (path.subservices ++ [path.method])

/-- The text of a path. -/
def display (path : ServicePath) : String := "/".intercalate path.segments

/-- The fault of one segment. -/
def segmentFault (index : Nat) (segment : String) : Option PathError :=
  if segment = "" then some (.emptySegment index)
  else if hasSeparator segment then some (.separatorInSegment index)
  else none

/-- The fault of the first faulty segment, where the segments are counted from `index` on. -/
def firstFault (index : Nat) : List String → Option PathError
  | [] => none
  | segment :: segments => segmentFault index segment <|> firstFault (index + 1) segments

theorem segmentFault_eq_none_iff {index : Nat} {segment : String} :
    segmentFault index segment = none ↔ IsSegment segment := by
  unfold segmentFault IsSegment
  by_cases hempty : segment = ""
  · simp [hempty]
  · cases hseparator : hasSeparator segment <;> simp [hempty]

theorem firstFault_eq_none_iff {index : Nat} {segments : List String} :
    firstFault index segments = none ↔ ∀ segment ∈ segments, IsSegment segment := by
  induction segments generalizing index with
  | nil => simp [firstFault]
  | cons segment segments ih =>
      simp [firstFault, segmentFault_eq_none_iff, ih]

/-- The path with the given segments. -/
def ofSegments : List String → Except PathError ServicePath
  | [] => .error (.tooShort 0)
  | [_] => .error (.tooShort 1)
  | service :: next :: rest =>
      match hfault : firstFault 0 (service :: next :: rest) with
      | some fault => .error fault
      | none => .ok {
          service := service
          subservices := (next :: rest).dropLast
          method := (next :: rest).getLast (by simp)
          isSegment := by
            rw [List.dropLast_concat_getLast]
            exact firstFault_eq_none_iff.1 hfault }

/-- The pieces between the separators of a text. There is one more of them than separators. -/
def pieces : List Char → List (List Char)
  | [] => [[]]
  | char :: chars =>
      if char = pathSeparator then [] :: pieces chars
      else
        match pieces chars with
        | [] => [[char]]
        | piece :: rest => (char :: piece) :: rest

/-- The path with the given text. -/
def parse (text : String) : Except PathError ServicePath :=
  ofSegments ((pieces text.toList).map String.ofList)

end ServicePath

end Switchboard
