/-
  Which bindings fit a shape.

  A compilation goes through the members one by one, through what is bound for the kind of the
  type, and through the keys that no member has used.  What it accepts can be said without this
  order: each check is passed or not whatever the others say.

  * `Shape.Consistent` is what every compilation asks for, `Shape.Exhaustive` what a strict one asks
    for beyond that;
  * `Shape.compileTable_eq_ok_iff`: a compilation succeeds if and only if this holds, and then it
    makes `Shape.tableOf`, which does not show whether the compilation was strict;
  * `Shape.compileTable_accepts`: so a lenient compilation accepts consistent bindings, a strict one
    those that are exhaustive as well, and a strict table is the lenient one.
-/
import TypeAtlas.Proofs.Host.Strict

namespace TypeAtlas

variable {shape : Shape} {mode : CompileMode} {bindings : Bindings} {type member : String}

/-! ## What fits -/

/-- The bindings are for the type of the shape, and what is bound is static where the member is. -/
structure Shape.Consistent (shape : Shape) (bindings : Bindings) : Prop where
  typeName : bindings.typeName = shape.name
  methods : ∀ method ∈ shape.methods, ∀ bound,
    bindings.methods.find? method.signature = some bound →
      bound.isStatic = method.modifiers.isStatic
  fields : ∀ field ∈ shape.fields, ∀ bound,
    bindings.fields.find? field.name = some bound → bound.isStatic = field.modifiers.isStatic

/-- Everything that can be called is bound, and everything that is bound can be called. -/
structure Shape.Exhaustive (shape : Shape) (bindings : Bindings) : Prop
    extends shape.Complete bindings where
  /-- What belongs to the kind of the type is bound. -/
  singleton : shape.kind = .object → ∃ value, bindings.singleton = some value
  constants : shape.kind = .enum → ∃ values, bindings.constants = some values
  /-- Every key is that of a member. -/
  constructor_keys : ∀ key ∈ bindings.constructors.keys,
    ∃ ctor ∈ shape.constructors, ctor.signature = key
  method_keys : ∀ key ∈ bindings.methods.keys, ∃ method ∈ shape.methods, method.signature = key
  field_keys : ∀ key ∈ bindings.fields.keys, ∃ field ∈ shape.fields, field.name = key

/-- The call table of a shape, if it has one. -/
def Shape.tableOf (shape : Shape) (lineage : Option Lineage) (bindings : Bindings) :
    CallTable where
  typeName := shape.name
  host := bindings.host
  constructors := shape.constructors.map bindings.tableConstructor
  methods := shape.methods.map bindings.tableMethod
  fields := shape.fields.map bindings.tableField
  proxyMethods := shape.proxyMethods.getD []
  singleton := if shape.kind = .object then bindings.singleton else none
  constants := if shape.kind = .enum then bindings.constants else none
  lineage := lineage

/-! ## Single checks -/

namespace CompileMode

theorem require_eq_ok_iff {α : Type} {needed : Bool} {body : Option α} {done : Unit} :
    mode.require type member needed body = .ok done ↔
      (mode.strict = true → needed = true → ∃ found, body = some found) := by
  unfold require missing
  cases body <;> cases needed <;> cases mode.strict <;> simp

theorem checkStatic_eq_ok_iff {α : Type} {declared : Bool} {bound : Option α} {isStatic : α → Bool}
    {done : Unit} : checkStatic type member declared (bound.map isStatic) = .ok done ↔
      ∀ found, bound = some found → isStatic found = declared := by
  cases bound with
  | none => simp [checkStatic]
  | some found =>
    by_cases hsame : isStatic found = declared <;> simp [checkStatic, hsame]

/-! ## Members -/

theorem constructor_eq_ok_iff (ctor : Constructor) (entry : TableConstructor) :
    mode.constructor shape bindings ctor = .ok entry ↔
      (mode.strict = true → shape.kind = .cls → shape.modifiers.isAbstract = false →
        ∃ body, bindings.constructors.find? ctor.signature = some body) ∧
      entry = bindings.tableConstructor ctor := by
  rw [bindings.tableConstructor_eq]
  simp only [constructor, bind_eq_ok, pure_eq_ok, require_eq_ok_iff, Bool.and_eq_true, beq_iff_eq,
    Bool.not_eq_true', and_imp, exists_const]
  exact and_congr_right' eq_comm

theorem method_eq_ok_iff (method : Method) (entry : TableMethod) :
    mode.method shape bindings method = .ok entry ↔
      ((∀ bound, bindings.methods.find? method.signature = some bound →
          bound.isStatic = method.modifiers.isStatic) ∧
        (mode.strict = true → method.modifiers.isAbstract = false →
          ∃ bound, bindings.methods.find? method.signature = some bound)) ∧
      entry = bindings.tableMethod method := by
  rw [bindings.tableMethod_eq]
  simp only [CompileMode.method, bind_eq_ok, pure_eq_ok, require_eq_ok_iff, checkStatic_eq_ok_iff,
    Bool.not_eq_true', exists_const, and_assoc]
  exact and_congr_right' (and_congr_right' eq_comm)

theorem field_eq_ok_iff (field : Field) (entry : TableField) :
    mode.field shape bindings field = .ok entry ↔
      ((∀ bound, bindings.fields.find? field.name = some bound →
          bound.isStatic = field.modifiers.isStatic) ∧
        (mode.strict = true → ∃ bound, bindings.fields.find? field.name = some bound)) ∧
      entry = bindings.tableField field := by
  rw [bindings.tableField_eq]
  simp only [CompileMode.field, bind_eq_ok, pure_eq_ok, require_eq_ok_iff, checkStatic_eq_ok_iff,
    true_imp_iff, exists_const, and_assoc]
  exact and_congr_right' (and_congr_right' eq_comm)

/-! ## The type as a whole -/

/-- No key is left over if and only if each is that of a member. -/
theorem find?_unused_eq_none_iff {α : Type} {keys : List String} {members : List α}
    {key : α → String} :
    (keys.find? fun k => !(members.map key).contains k) = none ↔
      ∀ k ∈ keys, ∃ item ∈ members, key item = k := by
  simp [List.find?_eq_none]

theorem stray?_eq_none_iff : stray? shape bindings = none ↔
    (∀ key ∈ bindings.constructors.keys, ∃ ctor ∈ shape.constructors, ctor.signature = key) ∧
    (∀ key ∈ bindings.methods.keys, ∃ method ∈ shape.methods, method.signature = key) ∧
    ∀ key ∈ bindings.fields.keys, ∃ field ∈ shape.fields, field.name = key := by
  simp only [stray?, Option.or_eq_none_iff, find?_unused_eq_none_iff, and_assoc]

theorem checkStray_eq_ok_iff {done : Unit} : mode.checkStray shape bindings = .ok done ↔
    (mode.strict = true → stray? shape bindings = none) := by
  unfold checkStray
  cases mode.strict with
  | false => simp
  | true => cases stray? shape bindings <;> simp

theorem special_eq_ok_iff {α : Type} {kind : TypeKind} {bound found : Option α} :
    mode.special shape kind member bound = .ok found ↔
      (mode.strict = true → shape.kind = kind → ∃ value, bound = some value) ∧
      found = if shape.kind = kind then bound else none := by
  unfold special
  by_cases hkind : shape.kind = kind
  · simp only [hkind, beq_self_eq_true, if_true, bind_eq_ok, pure_eq_ok, require_eq_ok_iff,
      true_imp_iff, exists_const]
    exact and_congr_right' eq_comm
  · rw [if_neg hkind, if_neg (by simpa using hkind), pure_eq_ok]
    exact ⟨fun h => ⟨fun _ hsame => absurd hsame hkind, h.symm⟩, fun h => h.2.symm⟩

end CompileMode

namespace Shape

open CompileMode

/-- **When a shape compiles, and to what.** -/
theorem compileTable_eq_ok_iff {table : CallTable} :
    shape.compileTable mode bindings = .ok table ↔
      shape.Consistent bindings ∧ (mode.strict = true → shape.Exhaustive bindings) ∧
        table = shape.tableOf mode.lineage bindings := by
  unfold compileTable
  split
  · next hother =>
    constructor
    · exact fun h => absurd h nofun
    · exact fun h => absurd h.1.typeName hother
  next hsame =>
  simp only [bind_eq_ok, pure_eq_ok, mapM_eq_ok_iff_map constructor_eq_ok_iff,
    mapM_eq_ok_iff_map method_eq_ok_iff, mapM_eq_ok_iff_map field_eq_ok_iff,
    checkStray_eq_ok_iff, stray?_eq_none_iff, special_eq_ok_iff]
  constructor
  · rintro ⟨_, ⟨hconstructors, rfl⟩, _, ⟨hmethods, rfl⟩, _, ⟨hfields, rfl⟩, _, hstray, _,
      ⟨hsingleton, rfl⟩, _, ⟨hconstants, rfl⟩, rfl⟩
    refine ⟨⟨not_not.1 hsame, fun method hmem => (hmethods method hmem).1,
      fun field hmem => (hfields field hmem).1⟩, fun hstrict => ?_, rfl⟩
    obtain ⟨hctorKeys, hmethodKeys, hfieldKeys⟩ := hstray hstrict
    exact {
      constructors := fun hkind habstract ctor hmem =>
        hconstructors ctor hmem hstrict hkind habstract
      methods := fun method hmem => (hmethods method hmem).2 hstrict
      fields := fun field hmem => (hfields field hmem).2 hstrict
      singleton := hsingleton hstrict
      constants := hconstants hstrict
      constructor_keys := hctorKeys
      method_keys := hmethodKeys
      field_keys := hfieldKeys }
  · rintro ⟨hconsistent, hexhaustive, rfl⟩
    exact ⟨_, ⟨fun ctor hmem hstrict hkind habstract =>
        (hexhaustive hstrict).constructors hkind habstract ctor hmem, rfl⟩,
      _, ⟨fun method hmem => ⟨hconsistent.methods method hmem,
        fun hstrict => (hexhaustive hstrict).methods method hmem⟩, rfl⟩,
      _, ⟨fun field hmem => ⟨hconsistent.fields field hmem,
        fun hstrict => (hexhaustive hstrict).fields field hmem⟩, rfl⟩,
      (), fun hstrict => ⟨(hexhaustive hstrict).constructor_keys,
        (hexhaustive hstrict).method_keys, (hexhaustive hstrict).field_keys⟩,
      _, ⟨fun hstrict => (hexhaustive hstrict).singleton, rfl⟩,
      _, ⟨fun hstrict => (hexhaustive hstrict).constants, rfl⟩, rfl⟩

/-- **Which bindings are accepted**: a lenient compilation accepts the consistent ones, a strict
    one those of them that are exhaustive; and where the strict one makes a table, the lenient one
    makes the same, so that no call is answered otherwise. -/
theorem compileTable_accepts (shape : Shape) (bindings : Bindings) (lineage : Option Lineage) :
    ((∃ table, shape.compileTable { lineage := lineage } bindings = .ok table) ↔
      shape.Consistent bindings) ∧
    ((∃ table, shape.compileTable { strict := true, lineage := lineage } bindings = .ok table) ↔
      shape.Consistent bindings ∧ shape.Exhaustive bindings) ∧
    ∀ table, shape.compileTable { strict := true, lineage := lineage } bindings = .ok table →
      shape.compileTable { lineage := lineage } bindings = .ok table := by
  refine ⟨⟨?_, fun hfits => ?_⟩, ⟨?_, fun hfits => ?_⟩, fun table h => ?_⟩
  · rintro ⟨table, h⟩
    exact (compileTable_eq_ok_iff.1 h).1
  · exact ⟨_, compileTable_eq_ok_iff.2 ⟨hfits, nofun, rfl⟩⟩
  · rintro ⟨table, h⟩
    obtain ⟨hconsistent, hexhaustive, -⟩ := compileTable_eq_ok_iff.1 h
    exact ⟨hconsistent, hexhaustive rfl⟩
  · exact ⟨_, compileTable_eq_ok_iff.2 ⟨hfits.1, fun _ => hfits.2, rfl⟩⟩
  · obtain ⟨hconsistent, -, htable⟩ := compileTable_eq_ok_iff.1 h
    exact compileTable_eq_ok_iff.2 ⟨hconsistent, nofun, htable⟩

/-- An account compiles strictly with all its bindings, and to the table of a lenient compilation;
    with nothing bound but its host it compiles leniently only. -/
theorem compileTable_accepts_account :
    (account.Consistent accountBindings ∧ account.Exhaustive accountBindings) ∧
    (∃ table, account.compileTable { strict := true } accountBindings = .ok table ∧
      account.compileTable {} accountBindings = .ok table) ∧
    account.Consistent (.ofHost "a.Account" ⟨7⟩) ∧
      ¬ account.Exhaustive (.ofHost "a.Account" ⟨7⟩) := by
  obtain ⟨-, hstrict, hsame⟩ := compileTable_accepts account accountBindings none
  obtain ⟨hbare, hbareStrict, -⟩ := compileTable_accepts account (.ofHost "a.Account" ⟨7⟩) none
  have hconsistent := hbare.1 ⟨_, rfl⟩
  refine ⟨hstrict.1 ⟨_, rfl⟩, ⟨_, rfl, hsame _ rfl⟩, hconsistent, fun hexhaustive => ?_⟩
  -- the strict compilation fails at the constructor
  obtain ⟨table, htable⟩ := hbareStrict.2 ⟨hconsistent, hexhaustive⟩
  cases htable

end Shape

end TypeAtlas
