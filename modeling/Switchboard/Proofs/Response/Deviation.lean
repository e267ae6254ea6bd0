import Switchboard.Proofs.Response.Layout
import Switchboard.Proofs.Response.Script

/-!
# Responses by codecs that do not keep to their sizes

`Field.Obeys` says that writing a field follows a script, and `Field.FirstFault` says which fault of
the fields comes first when some of them cannot be measured or do not put as many bytes as they
announced. The main result, `ResponseLayout.encode_exact_or_faulty`, says that a response whose
buffer can be allocated is encoded exactly when every field can be measured and is exact by itself,
and that otherwise it fails with the first fault of its fields.
-/

namespace Switchboard

namespace Field

/-- `field.Declares size` says that the field announces `size` bytes. -/
def Declares (field : Field) (size : Nat) : Prop := field.codec.sizeOf field.value = .ok size

/-- `field.Obeys plan` says that writing the field follows the script that `plan` gives for the
place at which the field begins. -/
def Obeys (field : Field) (plan : Plan) : Prop :=
  ∀ writer, field.codec.encode field.value writer =
    (plan writer.position writer.remaining).run writer

section Write

variable {field : Field} {plan : Plan} {size later : Nat} {error : CodecError} {writer : Writer}

/-- A field is refused when its codec fails. -/
theorem write_of_failed {after : Writer}
    (h : field.codec.encode field.value writer = .error error after) :
    field.write size writer = .error error after :=
  (Action.bind_of_ok rfl).trans (Action.bind_of_error h)

/-- A field is refused when its codec succeeds in another number of bytes than it announced. -/
theorem write_of_mismatched {bytes : Bytes}
    (h : field.codec.encode field.value writer = .ok () (writer.append bytes))
    (hsize : bytes.length ≠ size) :
    field.write size writer = .error (.sizeMismatch size bytes.length) (writer.append bytes) := by
  refine (Action.bind_of_ok rfl).trans ((Action.bind_of_ok h).trans ?_)
  have hwritten : (writer.append bytes).position - writer.position = bytes.length := by
    rw [Writer.position_append]
    omega
  simp only [bind, EStateM.bind, get, getThe, MonadStateOf.get, EStateM.get, hwritten, ne_eq, hsize,
    not_false_eq_true, if_true]
  rfl

/-- A field whose script is exact leaves the room behind it to the fields that announced it. -/
theorem write_of_exact (hfield : field.Obeys plan) (hroom : writer.remaining = size + later)
    (h : (plan writer.position (size + later)).Exact size) :
    ∃ after, field.write size writer = .ok () after ∧
      after = writer.append (plan writer.position (size + later)).bytes ∧
      after.position = writer.position + size ∧ after.remaining = later := by
  have hencode := hfield writer
  have hfits : (plan writer.position (size + later)).bytes.length ≤ writer.remaining := by
    rw [h.length_eq]
    omega
  rw [hroom, Script.run_of_le hfits, h.succeeds] at hencode
  have hposition := writer.position_append (plan writer.position (size + later)).bytes
  have hremaining := writer.remaining_append (plan writer.position (size + later)).bytes
  rw [h.length_eq] at hposition hremaining
  exact ⟨_, write_eq_ok_iff.2 ⟨hencode, by omega⟩, rfl, hposition, by omega⟩

theorem write_of_deviates (hfield : field.Obeys plan) (hroom : writer.remaining = size + later)
    (h : (plan writer.position (size + later)).Deviates size later error) :
    ∃ after, field.write size writer = .error error after := by
  have hencode := hfield writer
  rw [hroom] at hencode
  cases h with
  | failed error hfits hfailure =>
      rw [Script.run_of_le (hroom ▸ hfits), hfailure] at hencode
      exact ⟨_, write_of_failed hencode⟩
  | mismatched hfits hfailure hsize =>
      rw [Script.run_of_le (hroom ▸ hfits), hfailure] at hencode
      exact ⟨_, write_of_mismatched hencode hsize⟩
  | overran before put after hputs hbefore hput =>
      rw [← hroom] at hbefore hput
      have hrun := Script.putAll_of_lt before after put writer hbefore hput
      rw [← hputs, hroom] at hrun
      exact ⟨_, write_of_failed (hencode.trans (Action.bind_of_error hrun))⟩

end Write

/-- The scripts that plans give when every field takes as many bytes as it announced, the first of
them from `position` on. -/
def scriptsFrom (position : Nat) : List Plan → List Nat → List Script
  | [], _ => []
  | _ :: _, [] => []
  | plan :: plans, size :: sizes =>
      plan position (size + sizes.sum) :: scriptsFrom (position + size) plans sizes

/-- `FirstFault fields plans error` says that `error` is the first fault of the fields: the first
that cannot be measured, before anything is written, or else the first whose script, in the place
that the announced sizes give it, is not exact. -/
inductive FirstFault (fields : List Field) (plans : List Plan) :
    CodecError → Prop where
  | unmeasured (before field after error) : fields = before ++ field :: after →
      (∀ measured ∈ before, ∃ size, measured.Declares size) →
      field.codec.sizeOf field.value = .error error →
      FirstFault fields plans error
  | unwritten (before size later written script rest error) :
      List.Forall₂ Declares fields (before ++ size :: later) →
      scriptsFrom 0 plans (before ++ size :: later) = written ++ script :: rest →
      List.Forall₂ Script.Exact written before →
      script.Deviates size later.sum error →
      FirstFault fields plans error

theorem sizes_of_declares {fields : List Field} {sizes : List Nat}
    (h : List.Forall₂ Declares fields sizes) : Field.sizes fields = .ok sizes := by
  induction h with
  | nil => rfl
  | cons hfield _ ih =>
      rw [Field.sizes, hfield, ih]
      rfl

theorem sizes_of_unmeasured {before after : List Field} {field : Field} {error : CodecError}
    (hbefore : ∀ measured ∈ before, ∃ size, measured.Declares size)
    (hfield : field.codec.sizeOf field.value = .error error) :
    Field.sizes (before ++ field :: after) = .error error := by
  induction before with
  | nil =>
      rw [List.nil_append, Field.sizes, hfield]
      rfl
  | cons measured before ih =>
      obtain ⟨size, hsize⟩ := hbefore measured List.mem_cons_self
      have hrest := ih fun other hmem => hbefore other (List.mem_cons_of_mem _ hmem)
      rw [List.cons_append, Field.sizes, hsize, hrest]
      rfl

/-- Fields can all be measured, or there is a first that cannot. -/
theorem measured_or_unmeasured (fields : List Field) :
    (∃ sizes, List.Forall₂ Declares fields sizes) ∨
      ∃ before field after error, fields = before ++ field :: after ∧
        (∀ measured ∈ before, ∃ size, measured.Declares size) ∧
        field.codec.sizeOf field.value = .error error := by
  induction fields with
  | nil => exact .inl ⟨[], .nil⟩
  | cons field fields ih =>
      cases hfield : field.codec.sizeOf field.value with
      | error error => exact .inr ⟨[], field, fields, error, rfl, nofun, hfield⟩
      | ok size =>
          rcases ih with ⟨sizes, hsizes⟩ | ⟨before, other, after, error, rfl, hbefore, hother⟩
          · exact .inl ⟨size :: sizes, .cons hfield hsizes⟩
          · exact .inr ⟨field :: before, other, after, error, rfl,
              List.forall_mem_cons.2 ⟨⟨size, hfield⟩, hbefore⟩, hother⟩

/-- Scripts are all exact, or there is a first that deviates. -/
theorem exact_or_deviates {plans : List Plan} {sizes : List Nat}
    (hlength : plans.length = sizes.length) (position : Nat) :
    List.Forall₂ Script.Exact (scriptsFrom position plans sizes) sizes ∨
      ∃ before size later written script rest error, sizes = before ++ size :: later ∧
        scriptsFrom position plans sizes = written ++ script :: rest ∧
        List.Forall₂ Script.Exact written before ∧ script.Deviates size later.sum error := by
  induction plans generalizing sizes position with
  | nil =>
      obtain rfl := List.length_eq_zero_iff.1 hlength.symm
      exact .inl .nil
  | cons plan plans ih =>
      cases sizes with
      | nil => exact nomatch hlength
      | cons size later =>
          rcases (plan position (size + later.sum)).exact_or_deviates size later.sum with
            hexact | ⟨error, hdeviates⟩
          · rcases ih (Nat.succ.inj hlength) (position + size) with
              hrest | ⟨before, other, others, written, script, rest, error, rfl, hscripts, hwritten,
                hdeviates⟩
            · exact .inl (.cons hexact hrest)
            · refine .inr ⟨size :: before, other, others, _ :: written, script, rest, error, rfl,
                ?_, .cons hexact hwritten, hdeviates⟩
              rw [scriptsFrom, hscripts]
              rfl
          · exact .inr ⟨[], size, later, [], _, _, error, rfl, rfl, .nil, hdeviates⟩

/-- Fields whose scripts are exact take exactly the room that they announced. -/
theorem writeAll_of_exact {fields : List Field} {plans : List Plan}
    {sizes : List Nat} {writer : Writer} (hobeys : List.Forall₂ Obeys fields plans)
    (hexact : List.Forall₂ Script.Exact (scriptsFrom writer.position plans sizes) sizes)
    (hroom : writer.remaining = sizes.sum) :
    writeAll fields sizes writer = .ok ()
      (writer.append ((scriptsFrom writer.position plans sizes).flatMap Script.bytes)) := by
  induction hobeys generalizing sizes writer with
  | nil =>
      rw [scriptsFrom, List.flatMap_nil, Writer.append_nil]
      rfl
  | @cons field plan fields plans hfield _ ih =>
      cases sizes with
      | nil =>
          rw [scriptsFrom, List.flatMap_nil, Writer.append_nil]
          rfl
      | cons size sizes =>
          rw [List.sum_cons] at hroom
          obtain ⟨hfirst, hrest⟩ := List.forall₂_cons.1 hexact
          obtain ⟨next, hwrite, hnext, hposition, hremaining⟩ := write_of_exact hfield hroom hfirst
          have hwriteRest := ih (hposition ▸ hrest) hremaining
          rw [hposition, hnext, Writer.append_append] at hwriteRest
          rw [scriptsFrom, List.flatMap_cons, ← hwriteRest, ← hnext]
          exact Action.bind_of_ok hwrite

/-- The first script that deviates ends the writing. -/
theorem writeAll_of_deviates {fields : List Field} {plans : List Plan}
    {before later : List Nat} {size : Nat} {written rest : List Script} {script : Script}
    {error : CodecError} {writer : Writer} (hobeys : List.Forall₂ Obeys fields plans)
    (hscripts : scriptsFrom writer.position plans (before ++ size :: later) =
      written ++ script :: rest)
    (hwritten : List.Forall₂ Script.Exact written before)
    (hdeviates : script.Deviates size later.sum error)
    (hroom : writer.remaining = (before ++ size :: later).sum) :
    ∃ after, writeAll fields (before ++ size :: later) writer = .error error after := by
  induction hwritten generalizing fields plans writer with
  | nil =>
      cases hobeys with
      | nil => exact nomatch hscripts
      | cons hfield _ =>
          obtain ⟨rfl, -⟩ := List.cons.inj hscripts
          rw [List.nil_append, List.sum_cons] at hroom
          obtain ⟨after, hwrite⟩ := write_of_deviates hfield hroom hdeviates
          exact ⟨after, Action.bind_of_error hwrite⟩
  | cons hfirst _ ih =>
      cases hobeys with
      | nil => exact nomatch hscripts
      | cons hfield hfields =>
          obtain ⟨rfl, hrest⟩ := List.cons.inj hscripts
          rw [List.cons_append, List.sum_cons] at hroom
          obtain ⟨next, hwrite, -, hposition, hremaining⟩ := write_of_exact hfield hroom hfirst
          obtain ⟨after, hwriteRest⟩ := ih hfields (hposition ▸ hrest) hremaining
          exact ⟨after, (Action.bind_of_ok hwrite).trans hwriteRest⟩

theorem length_flatMap_of_exact {scripts : List Script} {sizes : List Nat}
    (h : List.Forall₂ Script.Exact scripts sizes) :
    (scripts.flatMap Script.bytes).length = sizes.sum := by
  induction h with
  | nil => rfl
  | cons hscript _ ih =>
      rw [List.flatMap_cons, List.length_append, hscript.length_eq, ih, List.sum_cons]

/-- Fields that can all be measured and are all exact are encoded as what their scripts put. -/
theorem encodeAll_of_exact {fields : List Field} {plans : List Plan}
    {sizes : List Nat} (hobeys : List.Forall₂ Obeys fields plans)
    (hsizes : List.Forall₂ Declares fields sizes)
    (hexact : List.Forall₂ Script.Exact (scriptsFrom 0 plans sizes) sizes) :
    encodeAll fields = .ok ((scriptsFrom 0 plans sizes).flatMap Script.bytes) := by
  have hlength := length_flatMap_of_exact hexact
  have hwrite : writeAll fields sizes (.ofSize sizes.sum) = _ :=
    writeAll_of_exact hobeys hexact (Writer.remaining_ofSize _)
  refine encodeAll_eq_ok_iff.2 ⟨sizes, _, sizes_of_declares hsizes, hwrite, ?_⟩
  rw [← hlength]
  exact buffer_ofSize_append _

/-- The first fault of the fields is what encoding them fails with. -/
theorem encodeAll_of_firstFault {fields : List Field}
    {plans : List Plan} {error : CodecError}
    (hobeys : List.Forall₂ Obeys fields plans) (h : FirstFault fields plans error) :
    encodeAll fields = .error error := by
  cases h with
  | unmeasured before field after error hfields hbefore hfield =>
      unfold encodeAll
      rw [hfields, sizes_of_unmeasured hbefore hfield]
      rfl
  | unwritten before size later written script rest error hsizes hscripts hwritten hdeviates =>
      have hwrite : ∃ after, writeAll fields (before ++ size :: later)
          (.ofSize (before ++ size :: later).sum) = .error error after :=
        writeAll_of_deviates hobeys hscripts hwritten hdeviates (Writer.remaining_ofSize _)
      obtain ⟨after, hwrite⟩ := hwrite
      rw [encodeAll_of_sizes (sizes_of_declares hsizes), fill_of_error hwrite]

/-- Fields can be encoded, or they have a first fault. -/
theorem exact_or_faulty {fields : List Field} {plans : List Plan}
    (hobeys : List.Forall₂ Obeys fields plans) :
    (∃ sizes, List.Forall₂ Declares fields sizes ∧
      List.Forall₂ Script.Exact (scriptsFrom 0 plans sizes) sizes) ∨
      ∃ error, FirstFault fields plans error := by
  rcases measured_or_unmeasured fields with
    ⟨sizes, hsizes⟩ | ⟨before, field, after, error, hfields, hbefore, hfield⟩
  · have hlength : plans.length = sizes.length := hobeys.length_eq.symm.trans hsizes.length_eq
    rcases exact_or_deviates hlength 0 with
      hexact | ⟨before, size, later, written, script, rest, error, rfl, hscripts, hwritten,
        hdeviates⟩
    · exact .inl ⟨sizes, hsizes, hexact⟩
    · exact .inr ⟨error, .unwritten before size later written script rest error hsizes hscripts
        hwritten hdeviates⟩
  · exact .inr ⟨error, .unmeasured before field after error hfields hbefore hfield⟩

/-- Fields are encoded exactly when they can all be measured and are all exact, and otherwise their
first fault comes of it. -/
theorem encodeAll_iff {fields : List Field} {plans : List Plan}
    (hobeys : List.Forall₂ Obeys fields plans) :
    (∀ bytes, encodeAll fields = .ok bytes ↔
      ∃ sizes, List.Forall₂ Declares fields sizes ∧
        List.Forall₂ Script.Exact (scriptsFrom 0 plans sizes) sizes ∧
        bytes = (scriptsFrom 0 plans sizes).flatMap Script.bytes) ∧
    ∀ error, encodeAll fields = .error error ↔ FirstFault fields plans error := by
  constructor
  · intro bytes
    constructor
    · intro h
      rcases exact_or_faulty hobeys with ⟨sizes, hsizes, hscripts⟩ | ⟨fault, hfault⟩
      · have hsame := (encodeAll_of_exact hobeys hsizes hscripts).symm.trans h
        exact ⟨sizes, hsizes, hscripts, (Except.ok.inj hsame).symm⟩
      · exact nomatch (encodeAll_of_firstFault hobeys hfault).symm.trans h
    · rintro ⟨sizes, hsizes, hscripts, rfl⟩
      exact encodeAll_of_exact hobeys hsizes hscripts
  · intro error
    constructor
    · intro h
      rcases exact_or_faulty hobeys with ⟨sizes, hsizes, hscripts⟩ | ⟨fault, hfault⟩
      · exact nomatch (encodeAll_of_exact hobeys hsizes hscripts).symm.trans h
      · have hsame := (encodeAll_of_firstFault hobeys hfault).symm.trans h
        exact Except.error.inj hsame ▸ hfault
    · exact encodeAll_of_firstFault hobeys

/-- Fields announce one size each. -/
theorem declares_unique {fields : List Field} {sizes others : List Nat}
    (h : List.Forall₂ Declares fields sizes) (hothers : List.Forall₂ Declares fields others) :
    sizes = others :=
  Except.ok.inj ((sizes_of_declares h).symm.trans (sizes_of_declares hothers))

/-- `Allocates fields` says that there can be a buffer for the fields, as far as they can be
measured. -/
def Allocates (fields : List Field) : Prop :=
  ∀ sizes, List.Forall₂ Declares fields sizes → sizes.sum < 2 ^ 63

/-- If there can be a buffer for the fields, then they are encoded in it. -/
theorem encodeAll?_of_allocates {fields : List Field} (h : Allocates fields) :
    encodeAll? fields = some (encodeAll fields) := by
  rcases measured_or_unmeasured fields with
    ⟨sizes, hsizes⟩ | ⟨before, field, after, error, rfl, hbefore, hfield⟩
  · have hroom : sizes.sum ≤ Writer.capacity := Nat.le_sub_one_of_lt (h sizes hsizes)
    have hmeasured := sizes_of_declares hsizes
    rw [encodeAll?_of_sizes hmeasured, encodeAll_of_sizes hmeasured, Writer.allocate?,
      if_pos hroom, Option.map_some]
  · unfold encodeAll? encodeAll
    rw [sizes_of_unmeasured hbefore hfield]
    rfl

/-- If there cannot, then nothing comes of encoding them. -/
theorem encodeAll?_of_le {fields : List Field} {sizes : List Nat}
    (hsizes : List.Forall₂ Declares fields sizes) (h : 2 ^ 63 ≤ sizes.sum) :
    encodeAll? fields = none := by
  have hroom : ¬ sizes.sum ≤ Writer.capacity := by
    show ¬ sizes.sum ≤ 2 ^ 63 - 1
    omega
  rw [encodeAll?_of_sizes (sizes_of_declares hsizes), Writer.allocate?, if_neg hroom,
    Option.map_none]

end Field

namespace ResponseLayout

/-- The codecs of a response: those of the parameters, and then that of the result. -/
def codecs (layout : ResponseLayout) : List ValueCodec :=
  layout.parameters ++ layout.result.toList.map ResultCodec.codec

/-- With a value for every codec, the fields are the codecs with their values. -/
theorem fields_of_matching {layout : ResponseLayout} {parameters : List Value}
    {result : Option Value} (hparameters : parameters.length = layout.parameters.length)
    (hresult : result.isSome = layout.result.isSome) :
    layout.fields parameters result =
      .ok (List.zipWith Field.mk layout.codecs (parameters ++ result.toList)) := by
  unfold fields codecs
  rw [List.zipWith_append hparameters.symm]
  cases hexpected : layout.result <;> cases hvalue : result <;>
    simp [hexpected, hvalue] at hresult ⊢

section Allocation

variable {layout : ResponseLayout} {parameters : List Value} {result : Option Value}
  {fields : List Field}

/-- Once the fields of a response are known, only a codec can fail. -/
theorem encode_of_fields (h : layout.fields parameters result = .ok fields) :
    layout.encode parameters result = (Field.encodeAll fields).mapError .codec := by
  unfold encode
  rw [h]
  rfl

theorem encode_eq_ok_iff (h : layout.fields parameters result = .ok fields) {bytes : Bytes} :
    layout.encode parameters result = .ok bytes ↔ Field.encodeAll fields = .ok bytes := by
  rw [encode_of_fields h]
  cases Field.encodeAll fields <;> simp [Except.mapError]

theorem encode_eq_error_iff (h : layout.fields parameters result = .ok fields)
    {error : InvokeError} :
    layout.encode parameters result = .error error ↔
      ∃ fault, error = .codec fault ∧ Field.encodeAll fields = .error fault := by
  rw [encode_of_fields h]
  cases Field.encodeAll fields <;> simp [Except.mapError, eq_comm]

/-- A response whose buffer can be allocated is encoded in it. -/
theorem encode?_of_allocates (h : layout.fields parameters result = .ok fields)
    (hroom : Field.Allocates fields) :
    layout.encode? parameters result = some (layout.encode parameters result) := by
  rw [encode_of_fields h]
  simp only [encode?, h, Field.encodeAll?_of_allocates hroom, Option.map_some]

/-- There is no response without a buffer. -/
theorem encode?_of_le (h : layout.fields parameters result = .ok fields) {sizes : List Nat}
    (hsizes : List.Forall₂ Field.Declares fields sizes) (hbeyond : 2 ^ 63 ≤ sizes.sum) :
    layout.encode? parameters result = none := by
  simp only [encode?, h, Field.encodeAll?_of_le hsizes hbeyond, Option.map_none]

end Allocation

/-- A response whose announced sizes add up to less than `2 ^ 63` is encoded exactly when every
field can be measured and every script, in the place that the announced sizes give it, puts as many
bytes as its field announced. Then it consists of what the scripts put, one behind the other.
Otherwise there is no response, and the failure is the first fault of the fields, so that what one
field puts too much never makes up for another. If the sizes add up to more, there is no buffer for
the response, and neither a response nor a failure. -/
theorem encode_exact_or_faulty (layout : ResponseLayout) (parameters : List Value)
    (result : Option Value) (plans : List Plan)
    (hparameters : parameters.length = layout.parameters.length)
    (hresult : result.isSome = layout.result.isSome)
    (hplans : List.Forall₂ Field.Obeys
      (List.zipWith Field.mk layout.codecs (parameters ++ result.toList)) plans) :
    let fields := List.zipWith Field.mk layout.codecs (parameters ++ result.toList)
    (∀ bytes, layout.encode? parameters result = some (.ok bytes) ↔
      ∃ sizes, List.Forall₂ Field.Declares fields sizes ∧ sizes.sum < 2 ^ 63 ∧
        List.Forall₂ Script.Exact (Field.scriptsFrom 0 plans sizes) sizes ∧
        bytes = (Field.scriptsFrom 0 plans sizes).flatMap Script.bytes ∧
        bytes.length = sizes.sum) ∧
    (∀ error, layout.encode? parameters result = some (.error error) ↔
      (∀ sizes, List.Forall₂ Field.Declares fields sizes → sizes.sum < 2 ^ 63) ∧
        ∃ fault, error = .codec fault ∧ Field.FirstFault fields plans fault) ∧
    (layout.encode? parameters result = none ↔
      ∃ sizes, List.Forall₂ Field.Declares fields sizes ∧ 2 ^ 63 ≤ sizes.sum) ∧
    ∀ outcome, layout.encode? parameters result = some outcome →
      layout.encode parameters result = outcome := by
  intro fields
  have hfields : layout.fields parameters result = .ok fields :=
    fields_of_matching hparameters hresult
  obtain ⟨hexact, hfaulty⟩ := Field.encodeAll_iff hplans
  by_cases hroom : Field.Allocates fields
  · rw [encode?_of_allocates hfields hroom]
    refine ⟨?_, ?_, ?_, fun outcome houtcome => Option.some.inj houtcome⟩
    · intro bytes
      rw [Option.some.injEq, encode_eq_ok_iff hfields, hexact]
      constructor
      · rintro ⟨sizes, hsizes, hscripts, rfl⟩
        exact ⟨sizes, hsizes, hroom sizes hsizes, hscripts, rfl,
          Field.length_flatMap_of_exact hscripts⟩
      · rintro ⟨sizes, hsizes, -, hscripts, hbytes, -⟩
        exact ⟨sizes, hsizes, hscripts, hbytes⟩
    · intro error
      rw [Option.some.injEq, encode_eq_error_iff hfields]
      constructor
      · rintro ⟨fault, rfl, hfault⟩
        exact ⟨hroom, fault, rfl, (hfaulty fault).1 hfault⟩
      · rintro ⟨-, fault, rfl, hfault⟩
        exact ⟨fault, rfl, (hfaulty fault).2 hfault⟩
    · refine ⟨nofun, ?_⟩
      rintro ⟨sizes, hsizes, hbeyond⟩
      exact absurd (hroom sizes hsizes) (Nat.not_lt_of_le hbeyond)
  · obtain ⟨sizes, hsizes, hbeyond⟩ : ∃ sizes, List.Forall₂ Field.Declares fields sizes ∧
        2 ^ 63 ≤ sizes.sum := by
      simpa [Field.Allocates] using hroom
    rw [encode?_of_le hfields hsizes hbeyond]
    refine ⟨fun bytes => ⟨nofun, ?_⟩, fun error => ⟨nofun, fun h => absurd h.1 hroom⟩,
      ⟨fun _ => ⟨sizes, hsizes, hbeyond⟩, fun _ => rfl⟩, nofun⟩
    rintro ⟨others, hothers, hless, -⟩
    obtain rfl := Field.declares_unique hsizes hothers
    exact absurd hless (Nat.not_lt_of_le hbeyond)

/-- A codec that announces `size` bytes and follows a script, whatever the value. -/
def scripted (size : Nat) (script : Script) : ValueCodec where
  valueType := .unit
  sizeOf _ := .ok size
  encode _ := script.run
  decode := pure .unit

theorem obeys_scripted (size : Nat) (script : Script) :
    Field.Obeys ⟨scripted size script, .unit⟩ fun _ _ => script :=
  fun _ => rfl

/-- A field that is a byte too long and one that is a byte too short fill the buffer, and still the
response fails. -/
theorem encode_exact_or_faulty_scripted :
    encode? ⟨[scripted 1 ⟨[[7, 7]], none⟩, scripted 2 ⟨[[9]], none⟩], none⟩ [.unit, .unit] none =
      some (.error (.codec (.sizeMismatch 1 2))) := by
  obtain ⟨-, hfaulty, -⟩ := encode_exact_or_faulty
    ⟨[scripted 1 ⟨[[7, 7]], none⟩, scripted 2 ⟨[[9]], none⟩], none⟩ [.unit, .unit] none _ rfl rfl
    (.cons (obeys_scripted 1 ⟨[[7, 7]], none⟩) (.cons (obeys_scripted 2 ⟨[[9]], none⟩) .nil))
  have hsizes : List.Forall₂ Field.Declares
      [⟨scripted 1 ⟨[[7, 7]], none⟩, .unit⟩, ⟨scripted 2 ⟨[[9]], none⟩, .unit⟩] [1, 2] :=
    .cons rfl (.cons rfl .nil)
  refine (hfaulty _).2 ⟨?_, _, rfl, ?_⟩
  · intro others hothers
    obtain rfl := Field.declares_unique hsizes hothers
    decide
  · exact .unwritten [] 1 [2] [] _ _ _ hsizes rfl .nil (.mismatched (by decide) rfl (by decide))

/-- Two codecs that put fewer bytes than they announced, and no wrong size is reported. For the
first, which announces more than a buffer can have, there is neither a response nor a failure, and
the second fails with a reason of its own. -/
theorem shortfalls_without_mismatch :
    let huge := scripted (2 ^ 63) ⟨[[9]], none⟩
    let refusing := scripted 1 ⟨[], some (.invalid (.custom "refused"))⟩
    huge.sizeOf .unit = .ok (2 ^ 63) ∧ encode? ⟨[huge], none⟩ [.unit] none = none ∧
      (¬ ∃ error, encode? ⟨[huge], none⟩ [.unit] none = some (.error error)) ∧
      refusing.sizeOf .unit = .ok 1 ∧ encode? ⟨[refusing], none⟩ [.unit] none =
        some (.error (.codec (.invalid (.custom "refused")))) := by
  intro huge refusing
  have hnone : encode? ⟨[huge], none⟩ [.unit] none = none :=
    encode?_of_le rfl (.cons rfl .nil) (by decide)
  refine ⟨rfl, hnone, ?_, rfl, rfl⟩
  rintro ⟨error, herror⟩
  exact nomatch hnone.symm.trans herror

end ResponseLayout

end Switchboard
