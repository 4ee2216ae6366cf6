/-
  Values in slots.

  `Slot.Conforms` lists what may stand in a slot: exactly the values of a
  primitive, and for a reference nothing, texts and boxed primitives where their
  own type or a type above it is asked for, and objects unless their lineage is
  known to be another.

  * `Slot.declared`: the slot that a type name declares, name by name;
  * `Slot.accept_cases`: a value that conforms is handed over in its native form,
    any other is refused;
  * `Slot.acceptAll_of_conform` and `Slot.acceptAll_of_first`: the same of a list of
    arguments, where the first that does not conform is refused;
  * `Slot.conforms_of_produce`: what is returned conforms.
-/
import TypeAtlas.Host.CallTable
import TypeAtlas.Proofs.Except

namespace TypeAtlas

/-! ## Types of values -/

/-- The types that a text is of. -/
def Value.typesOfText : List String :=
  ["java.lang.String", "java.lang.Object", "java.io.Serializable", "java.lang.Comparable",
    "java.lang.CharSequence"]

/-- The types that a boxed primitive is of.  There is no value of the wrapper of `void`. -/
def Primitive.typesOfBoxed (p : Primitive) : List String :=
  let shared := ["java.lang.Object", "java.io.Serializable", "java.lang.Comparable"]
  match p with
  | .boolean => "java.lang.Boolean" :: shared
  | .byte => "java.lang.Byte" :: "java.lang.Number" :: shared
  | .char => "java.lang.Character" :: shared
  | .short => "java.lang.Short" :: "java.lang.Number" :: shared
  | .int => "java.lang.Integer" :: "java.lang.Number" :: shared
  | .long => "java.lang.Long" :: "java.lang.Number" :: shared
  | .float => "java.lang.Float" :: "java.lang.Number" :: shared
  | .double => "java.lang.Double" :: "java.lang.Number" :: shared
  | .void => []

theorem Value.mem_typesOfText {name : String} :
    name ∈ typesOfText ↔ name = Name.string ∨ name ∈ aboveText := List.mem_cons

theorem Primitive.mem_typesOfBoxed {name : String} {value : Value} {p : Primitive}
    (h : value.primitive? = some p) :
    name ∈ p.typesOfBoxed ↔ name = p.wrapper ∨ name ∈ Value.aboveBoxed p := by
  cases value <;> cases h <;>
    simp [typesOfBoxed, Value.aboveBoxed, isNumeric, wrapper, Name.object, Name.serializable,
      Name.comparable, Name.number, or_comm, or_left_comm]

namespace Slot

variable {lineage : Option Lineage} {slot : Slot} {value : Value}

/-! ## Declared types -/

/-- The slot that a type name declares: nine names are those of primitives, any other is that of
    a type of references. -/
def declared : String → Slot
  | "boolean" => primitive .boolean
  | "byte" => primitive .byte
  | "char" => primitive .char
  | "short" => primitive .short
  | "int" => primitive .int
  | "long" => primitive .long
  | "float" => primitive .float
  | "double" => primitive .double
  | "void" => primitive .void
  | typeName => reference typeName

theorem ofName_eq_declared (typeName : String) : ofName typeName = declared typeName := by
  unfold declared
  split
  case h_10 hboolean hbyte hchar hshort hint hlong hfloat hdouble hvoid =>
    have hnone : Primitive.ofName? typeName = none := by
      rw [Primitive.ofName?, List.find?_eq_none]
      intro p _ hname
      have hsame : typeName = p.name := (eq_of_beq hname).symm
      cases p
      exacts [hboolean hsame, hbyte hsame, hchar hsame, hshort hsame, hint hsame, hlong hsame,
        hfloat hsame, hdouble hsame, hvoid hsame]
    rw [ofName, hnone]
  all_goals rfl

/-! ## Conforming -/

/-- The values that may stand in a slot. -/
inductive Conforms (lineage : Option Lineage) : Slot → Value → Prop
  | void : Conforms lineage (.primitive .void) .null
  | primitive {primitive : Primitive} {value : Value} :
      value.primitive? = some primitive → Conforms lineage (.primitive primitive) value
  | null {name : String} : Conforms lineage (.reference name) .null
  | text {name s : String} :
      name ∈ Value.typesOfText → Conforms lineage (.reference name) (.text s)
  | boxed {name : String} {primitive : Primitive} {value : Value} :
      value.primitive? = some primitive → name ∈ primitive.typesOfBoxed →
      Conforms lineage (.reference name) value
  | accepted {name : String} {ref : ObjectRef} {known : Lineage} :
      lineage = some known → known.accepts? ref.typeName name = some true →
      Conforms lineage (.reference name) (.object ref)
  | unjudged {name : String} {ref : ObjectRef} :
      (∀ known, lineage = some known → known.accepts? ref.typeName name = none) →
      Conforms lineage (.reference name) (.object ref)

/-- The primitive form of a value; what has none stays a reference. -/
def unboxed : Value → Native
  | .null => .void
  | .boolean b => .boolean b
  | .byte n => .byte n
  | .char c => .char c
  | .short n => .short n
  | .int n => .int n
  | .long n => .long n
  | .float x => .float x
  | .double x => .double x
  | value => .ref value

/-- The native form of a value in a slot. -/
def native : Slot → Value → Native
  | primitive _, value => unboxed value
  | reference _, value => .ref value

/-- The native forms of arguments, in order. -/
def natives (slots : List Slot) (arguments : List Value) : List Native :=
  List.zipWith native slots arguments

/-- The refusal of a value that does not conform. -/
def refusal : Slot → Value → CallError
  | primitive p, .null => .nullPrimitive p
  | primitive p, value => .wrongType p.name value.typeName
  | reference name, value => .wrongType name value.typeName

/-! ## Taking values in -/

theorem conforms_primitive_iff {p : Primitive} :
    (primitive p).Conforms lineage value ↔
      value.primitive? = some p ∨ (p = .void ∧ value = .null) := by
  constructor
  · rintro (_ | h)
    · exact Or.inr ⟨rfl, rfl⟩
    · exact Or.inl h
  · rintro (h | ⟨rfl, rfl⟩)
    · exact .primitive h
    · exact .void

theorem admits_text_iff {name s : String} :
    admits lineage name (.text s) = true ↔ name ∈ Value.typesOfText := by
  simp [admits, Value.fits, Value.mem_typesOfText]

theorem admits_boxed_iff {p : Primitive} (h : value.primitive? = some p) (name : String) :
    admits lineage name value = true ↔ name ∈ p.typesOfBoxed := by
  rw [Primitive.mem_typesOfBoxed h]
  cases value <;> cases h <;> cases lineage <;> simp [admits, Value.fits, Value.primitive?]

theorem admits_iff {name : String} :
    admits lineage name value = true ↔ (reference name).Conforms lineage value := by
  constructor
  · intro h
    cases value with
    | null => exact .null
    | text s => exact .text (admits_text_iff.1 h)
    | object ref =>
      cases lineage with
      | none => exact .unjudged fun known hknown => by cases hknown
      | some known =>
        cases haccepts : known.accepts? ref.typeName name with
        | none => exact .unjudged fun other hother => by cases hother; exact haccepts
        | some answer =>
          obtain rfl : answer = true := by simpa [admits, haccepts] using h
          exact .accepted rfl haccepts
    | _ => exact .boxed rfl ((admits_boxed_iff (by rfl) name).1 h)
  · rintro (_ | _ | _ | h | ⟨hvalue, hname⟩ | ⟨rfl, haccepts⟩ | hunjudged)
    · rfl
    · exact admits_text_iff.2 h
    · exact (admits_boxed_iff hvalue name).2 hname
    · simp [admits, haccepts]
    · cases lineage with
      | none => rfl
      | some known => simp [admits, hunjudged known rfl]

theorem unbox_cases (p : Primitive) (value : Value) :
    ((primitive p).Conforms lineage value ∧ p.unbox value = .ok (unboxed value)) ∨
      (¬ (primitive p).Conforms lineage value ∧
        p.unbox value = .error ((primitive p).refusal value)) := by
  rw [conforms_primitive_iff]
  cases p <;> cases value <;> simp [Value.primitive?, Primitive.unbox, unboxed, refusal]

/-- **A value that conforms is handed over, any other is refused.** -/
theorem accept_cases (lineage : Option Lineage) (slot : Slot) (value : Value) :
    (slot.Conforms lineage value ∧ slot.accept lineage value = .ok (slot.native value)) ∨
      (¬ slot.Conforms lineage value ∧
        slot.accept lineage value = .error (slot.refusal value)) := by
  cases slot with
  | primitive p => exact unbox_cases p value
  | reference name =>
    rw [← admits_iff, accept]
    by_cases hadmits : admits lineage name value = true
    · exact Or.inl ⟨hadmits, if_pos hadmits⟩
    · refine Or.inr ⟨hadmits, ?_⟩
      rw [if_neg hadmits]
      cases value <;> rfl

theorem accept_of_conforms (h : slot.Conforms lineage value) :
    slot.accept lineage value = .ok (slot.native value) := by
  rcases accept_cases lineage slot value with ⟨-, haccept⟩ | ⟨hnot, -⟩
  · exact haccept
  · exact absurd h hnot

theorem accept_of_not_conforms (h : ¬ slot.Conforms lineage value) :
    slot.accept lineage value = .error (slot.refusal value) := by
  rcases accept_cases lineage slot value with ⟨hyes, -⟩ | ⟨-, haccept⟩
  · exact absurd hyes h
  · exact haccept

/-! ## Taking arguments in -/

theorem acceptAll_of_conform {slots : List Slot} {arguments : List Value}
    (h : List.Forall₂ (Conforms lineage) slots arguments) :
    acceptAll lineage slots arguments = .ok (natives slots arguments) := by
  rw [acceptAll, mapM_eq_ok_iff]
  induction h with
  | nil => exact .nil
  | cons hconforms _ ih => exact .cons (accept_of_conforms hconforms) ih

theorem acceptAll_singleton (lineage : Option Lineage) (slot : Slot) (value : Value) :
    acceptAll lineage [slot] [value] = List.singleton <$> slot.accept lineage value := by
  simp only [acceptAll, List.zip_cons_cons, List.zip_nil_right, List.mapM_cons, List.mapM_nil]
  cases slot.accept lineage value <;> rfl

/-- Arguments that are taken in are handed over in their native form. -/
theorem eq_natives_of_acceptAll {slots : List Slot} {arguments : List Value}
    {taken : List Native} (h : acceptAll lineage slots arguments = .ok taken) :
    taken = natives slots arguments := by
  rw [natives, ← List.map_uncurry_zip_eq_zipWith]
  refine eq_map_of_mapM (fun pair native hnative => ?_) h
  rcases accept_cases lineage pair.1 pair.2 with ⟨-, haccept⟩ | ⟨-, haccept⟩ <;>
    rw [haccept] at hnative <;> cases hnative
  rfl

/-- The first argument that does not conform is refused. -/
theorem acceptAll_of_first {slots slots' : List Slot} {arguments arguments' : List Value}
    (h : List.Forall₂ (Conforms lineage) slots arguments)
    (hnot : ¬ slot.Conforms lineage value) :
    acceptAll lineage (slots ++ slot :: slots') (arguments ++ value :: arguments') =
      .error (slot.refusal value) := by
  unfold acceptAll
  induction h with
  | nil =>
    simp only [List.nil_append, List.zip_cons_cons, List.mapM_cons,
      accept_of_not_conforms hnot]
    rfl
  | cons hconforms _ ih =>
    simp only [List.cons_append, List.zip_cons_cons, List.mapM_cons,
      accept_of_conforms hconforms, ih]
    rfl

/-- As many arguments as slots conform to them, or one of them is the first that does not. -/
theorem conform_or_first (lineage : Option Lineage) {slots : List Slot} {arguments : List Value}
    (h : slots.length = arguments.length) :
    List.Forall₂ (Conforms lineage) slots arguments ∨
      ∃ slots₁ slot slots₂ arguments₁ value arguments₂,
        slots = slots₁ ++ slot :: slots₂ ∧ arguments = arguments₁ ++ value :: arguments₂ ∧
        List.Forall₂ (Conforms lineage) slots₁ arguments₁ ∧ ¬ slot.Conforms lineage value := by
  induction slots generalizing arguments with
  | nil =>
    obtain rfl := List.length_eq_zero_iff.1 h.symm
    exact Or.inl .nil
  | cons slot slots ih =>
    obtain ⟨value, arguments, rfl⟩ := List.exists_cons_of_length_eq_add_one h.symm
    by_cases hconforms : slot.Conforms lineage value
    · rcases ih (Nat.succ.inj h) with hall | ⟨s₁, s, s₂, a₁, v, a₂, rfl, rfl, hall, hnot⟩
      · exact Or.inl (.cons hconforms hall)
      · exact Or.inr ⟨slot :: s₁, s, s₂, value :: a₁, v, a₂, rfl, rfl,
          .cons hconforms hall, hnot⟩
    · exact Or.inr ⟨[], slot, slots, [], value, arguments, rfl, rfl, .nil, hconforms⟩

/-! ## Handing results out -/

theorem primitive?_box {native : Native} {p : Primitive} (h : native.primitive? = some p)
    (hvoid : p ≠ .void) : native.box.primitive? = some p := by
  cases native <;> cases h <;> first | rfl | exact absurd rfl hvoid

/-- **What is returned conforms to the declared type.** -/
theorem conforms_of_produce {native : Native}
    (h : slot.produce lineage native = .ok value) : slot.Conforms lineage value := by
  unfold produce at h
  split at h
  · cases h
    exact .void
  · next p hvoid =>
    split at h
    · next hnative =>
      cases h
      exact .primitive (primitive?_box hnative fun hp => hvoid (hp ▸ rfl))
    · cases h
  · next name =>
    split at h
    · next hadmits =>
      cases h
      exact admits_iff.1 hadmits
    · cases h

end Slot

end TypeAtlas
