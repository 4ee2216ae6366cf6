/-
  Fields that keep what is written.

  The fields of a host type are kept in its records.  A layout says how each is read
  and how it is written; it is lawful if what was written is read back and the other
  fields read as before.  A call table that is bound by a lawful layout shows the same
  at its surface, although a value passes two slots on its way in and out.

  * `Slot.produce_of_accept`: what a slot takes in it gives out again, as it was;
  * `Bindings.Follows`: the fields of a type are bound as a layout keeps them;
  * `CallTable.answer_getField_congr`: reading a field depends on the record of the
    object and nothing else;
  * `CallTable.setField_seen`: a written field reads as what was written, all other
    fields of all objects read as before, and a refused write changes nothing.
-/
import TypeAtlas.Proofs.Host.Gate

namespace TypeAtlas

/-! ## In and out of a slot -/

theorem Slot.produce_primitive {lineage : Option Lineage} {p : Primitive} {native : Native}
    (h : native.primitive? = some p) :
    (primitive p).produce lineage native = .ok native.box := by
  by_cases hvoid : p = .void
  · subst hvoid
    cases native <;> cases h
    rfl
  · rw [produce.eq_2 lineage native p hvoid, if_pos h]

/-- **A slot gives out what it took in**, whichever lineage judges objects. -/
theorem Slot.produce_of_accept {lineage : Option Lineage} {slot : Slot} {value : Value}
    {native : Native} (h : slot.accept lineage value = .ok native) :
    slot.produce lineage native = .ok value := by
  cases slot with
  | primitive p =>
    obtain ⟨rfl, hprimitive⟩ := Primitive.box_of_unbox h
    exact produce_primitive hprimitive
  | reference name =>
    by_cases hadmits : admits lineage name value = true
    · rw [accept, if_pos hadmits] at h
      cases h
      exact if_pos hadmits
    · rw [accept, if_neg hadmits] at h
      cases h

/-! ## Records of objects -/

namespace Store

variable {store : Store} {ref other : ObjectRef} {host : HostType} {fields : Record}

theorem payload_put_of_ne (payload : Payload) (hne : other.id ≠ ref.id) :
    (store.put ref payload).payload other = store.payload other := by
  unfold put Store.payload
  rw [Array.getElem?_setIfInBounds_ne hne.symm]

/-- Only objects that exist hold records. -/
theorem payload_put_self (payload : Payload) (h : store.payload ref = .record host fields) :
    (store.put ref payload).payload ref = payload := by
  have hbound : ref.id < store.objects.size := by
    refine Nat.lt_of_not_le fun hle => ?_
    rw [Store.payload, Array.getElem?_eq_none hle] at h
    cases h
  rw [Store.payload, put, Array.getElem?_setIfInBounds_self_of_lt hbound]
  rfl

end Store

theorem HostM.read_eq (host : HostType) (expected : String) (ref : ObjectRef) (store : Store) :
    HostM.read host expected ref store =
      match store.payload ref with
      | .record found fields =>
        if found = host then .ok fields store
        else .error (.wrongReceiver expected ref.typeName) store
      | _ => .error (.wrongReceiver expected ref.typeName) store := by
  show (match store.payload ref with
    | .record found fields =>
      if found = host then pure fields else throw (.wrongReceiver expected ref.typeName)
    | _ => throw (.wrongReceiver expected ref.typeName) : HostM Record) store = _
  cases store.payload ref with
  | record found fields =>
    dsimp only
    split <;> rfl
  | proxy | foreign => rfl

/-! ## Answers -/

/-- What a computation answers, apart from what it leaves stored. -/
def HostM.answer {α : Type} (body : HostM α) (store : Store) : Except CallError α :=
  match body store with
  | .ok a _ => .ok a
  | .error e _ => .error e

namespace HostM

variable {α β : Type}

theorem answer_ofExcept_bind (found : Except CallError α) (next : α → HostM β) (store : Store) :
    (ofExcept found >>= next).answer store = found >>= fun a => (next a).answer store := by
  cases found <;> rfl

theorem answer_bind_ofExcept (body : HostM α) (next : α → Except CallError β) (store : Store) :
    (body >>= fun a => ofExcept (next a)).answer store = body.answer store >>= next := by
  show (match EStateM.bind body _ store with
    | .ok b _ => Except.ok b
    | .error e _ => Except.error e) = (match body store with
    | .ok a _ => Except.ok a
    | .error e _ => Except.error e) >>= next
  unfold EStateM.bind
  cases body store with
  | error e after => rfl
  | ok a after =>
    dsimp only
    rw [ok_bind]
    cases next a <;> rfl

end HostM

/-! ## Layouts -/

/-- How the fields of a host type are kept in its records, by name. -/
structure Layout where
  /-- What a field reads as. -/
  read : String → Record → Native
  /-- Stores a value in a field, or refuses it. -/
  write : String → Native → EStateM CallError Record Unit

namespace Layout

/-- What is written is read back, and the other fields are left alone. -/
structure Lawful (layout : Layout) : Prop where
  read_write : ∀ {name native fields fields'},
    layout.write name native fields = .ok () fields' → layout.read name fields' = native
  read_write_of_ne : ∀ {name other native fields fields'}, other ≠ name →
    layout.write name native fields = .ok () fields' →
      layout.read other fields' = layout.read other fields

/-- Every field is an entry of the record. -/
def entries : Layout where
  read name fields := (fields.find? name).getD .void
  write name native := modify fun (fields : Record) => fields.insert name native

theorem lawful_entries : entries.Lawful where
  read_write h := by
    cases h
    simp only [entries, Table.find?_insert, if_true, Option.getD_some]
  read_write_of_ne hne h := by
    cases h
    simp only [entries, Table.find?_insert, if_neg hne]

/-- What a field of an object shows, if the object holds a record of the host type. -/
def view (layout : Layout) (host : HostType) (name : String) : Payload → Option Native
  | .record found fields => if found = host then some (layout.read name fields) else none
  | _ => none

end Layout

/-! ## Bindings that follow a layout -/

namespace Bindings

/-- The writing of an instance field. -/
def setter (bindings : Bindings) (host : HostType) (name : String)
    (set : Native → EStateM CallError Record Unit) : Option ObjectRef → Native → HostM Unit :=
  fun target native => do
    HostM.update host bindings.typeName (← receiver name target) (set native)

/-- The ways in which a field is bound by a layout. -/
inductive Binds (bindings : Bindings) (host : HostType) (layout : Layout) (name : String) :
    BoundField → Prop
  /-- For reading and writing. -/
  | field : Binds bindings host layout name
      ⟨false, bindings.getter host name (layout.read name),
        some (bindings.setter host name (layout.write name))⟩
  /-- For reading only. -/
  | readOnly : Binds bindings host layout name
      ⟨false, bindings.getter host name (layout.read name), none⟩
  /-- With a value of its own, which belongs to no object. -/
  | static (native : Native) : Binds bindings host layout name ⟨true, fun _ => pure native, none⟩

/-- Receivers are of a host type, and fields are bound as a layout of its records keeps them. -/
structure Follows (bindings : Bindings) (host : HostType) (layout : Layout) : Prop where
  host_eq : bindings.host = some host
  binds : ∀ {name bound}, bindings.fields.find? name = some bound →
    bindings.Binds host layout name bound

variable {bindings : Bindings} {host : HostType} {layout : Layout} {name : String}
  {bound : BoundField}

theorem follows_ofHost (typeName : String) (host : HostType) (layout : Layout) :
    (ofHost typeName host).Follows host layout where
  host_eq := rfl
  binds h := by cases h

/-- One more field that is bound by the layout. -/
theorem Follows.withBoundField (h : bindings.Follows host layout)
    (hbinds : bindings.Binds host layout name bound) :
    (bindings.withBoundField name bound).Follows host layout where
  host_eq := h.host_eq
  binds {other found} hfound := by
    -- how a field is bound depends on nothing of the bindings but the name of their type
    have hkeep : bindings.Binds host layout other found →
        (bindings.withBoundField name bound).Binds host layout other found := by
      rintro (_ | _ | native)
      · exact .field
      · exact .readOnly
      · exact .static native
    rw [Bindings.withBoundField, Table.find?_insert] at hfound
    split at hfound
    · next hsame =>
      cases hfound
      exact hkeep (hsame ▸ hbinds)
    · exact hkeep (h.binds hfound)

/-! ### Reading and writing -/

/-- Reading a field leaves the objects as they are and gives what the object shows. -/
theorem getter_eq (ref : ObjectRef) (store : Store) :
    bindings.getter host name (layout.read name) (some ref) store =
      match layout.view host name (store.payload ref) with
      | some native => .ok native store
      | none => .error (.wrongReceiver bindings.typeName ref.typeName) store := by
  show EStateM.bind (HostM.read host bindings.typeName ref)
    (fun fields => pure (layout.read name fields)) store = _
  rw [EStateM.bind, HostM.read_eq]
  cases store.payload ref with
  | record found fields =>
    by_cases hfound : found = host
    · simp only [Layout.view, hfound, if_true]
      rfl
    · simp only [Layout.view, hfound, if_false]
  | proxy | foreign => rfl

/-- What a field of an object reads as depends on what the object shows of it. -/
theorem Binds.answer_get_congr (h : bindings.Binds host layout name bound)
    {store store' : Store} {ref : Option ObjectRef}
    (hview : ∀ object, ref = some object →
      layout.view host name (store'.payload object) =
        layout.view host name (store.payload object)) :
    (bound.get ref).answer store' = (bound.get ref).answer store := by
  have hgetter : (bindings.getter host name (layout.read name) ref).answer store' =
      (bindings.getter host name (layout.read name) ref).answer store := by
    cases ref with
    | none => rfl
    | some object =>
      rw [HostM.answer, HostM.answer, getter_eq, getter_eq, hview object rfl]
      cases layout.view host name (store.payload object) <;> rfl
  cases h with
  | field => exact hgetter
  | readOnly => exact hgetter
  | static native => rfl

/-- Writing a field of an object that holds a record changes this record as the layout says. -/
theorem setter_eq {ref : ObjectRef} {store : Store} {fields : Record} (native : Native)
    (h : store.payload ref = .record host fields) :
    bindings.setter host name (layout.write name) (some ref) native store =
      match layout.write name native fields with
      | .ok _ fields' => .ok () (store.put ref (.record host fields'))
      | .error e fields' => .error e (store.put ref (.record host fields')) := by
  show EStateM.bind (HostM.read host bindings.typeName ref) _ store = _
  rw [EStateM.bind, HostM.read_eq, h]
  simp only [if_true]
  cases layout.write name native fields <;> rfl

end Bindings

/-! ## Calls on fields -/

namespace CallTable

section

variable {table : CallTable} {store store' : Store} {index : Nat} {target : Option Value}
  {value : Value} {ref : Option ObjectRef} {native : Native}

theorem member_eq_ok {α : Type} {kind : MemberKind} {members : List α} {found : α} :
    table.member kind members index = .ok found ↔ members[index]? = some found := by
  unfold member
  cases members[index]? <;> simp

theorem bodyOf_eq_ok {α : Type} {member : String} {body : Option α} {found : α} :
    table.bodyOf member body = .ok found ↔ body = some found := by
  cases body <;> simp [bodyOf]

/-- When the getter of a field is run. -/
theorem readyGet_eq_ok {slot : Slot} {get : Option ObjectRef → HostM Native} :
    table.readyGet store index target = .ok (slot, get, ref) ↔
      ∃ field, table.fields[index]? = some field ∧
        table.receiver? store field.isStatic field.name target = .ok ref ∧
        field.slot = slot ∧ field.get = some get := by
  simp only [readyGet, bind_eq_ok, pure_eq_ok, member_eq_ok, bodyOf_eq_ok, Prod.mk.injEq]
  constructor
  · rintro ⟨field, hfield, _, href, found, hget, rfl, rfl, rfl⟩
    exact ⟨field, hfield, href, rfl, hget⟩
  · rintro ⟨field, hfield, href, rfl, hget⟩
    exact ⟨field, hfield, _, href, _, hget, rfl, rfl, rfl⟩

/-- What was checked when the setter of a field is run. -/
theorem exists_of_readySet {set : Option ObjectRef → Native → HostM Unit}
    (h : table.readySet store index target value = .ok (set, ref, native)) :
    ∃ field, table.fields[index]? = some field ∧
      table.receiver? store field.isStatic field.name target = .ok ref ∧
      field.slot.accept table.lineage value = .ok native ∧ field.set = some set := by
  rw [readySet, bind_eq_ok] at h
  obtain ⟨field, hfield, h⟩ := h
  cases hfinal : field.isFinal with
  | true =>
    rw [hfinal] at h
    cases h
  | false =>
    simp only [hfinal, Bool.false_eq_true, if_false, bind_eq_ok, pure_eq_ok, bodyOf_eq_ok,
      Prod.mk.injEq] at h
    obtain ⟨_, href, _, hnative, _, hset, rfl, rfl, rfl⟩ := h
    exact ⟨field, member_eq_ok.1 hfield, href, hnative, hset⟩

/-- A receiver that is passed on is the target. -/
theorem target_of_receiver? {isStatic : Bool} {member : String} {object : ObjectRef}
    (h : table.receiver? store isStatic member target = .ok (some object)) :
    target = some (.object object) ∧ table.hostMatches (store.payload object) = true := by
  unfold receiver? at h
  split at h
  · cases h
  · obtain ⟨found, hfound, hsame⟩ := map_eq_ok.1 h
    cases hsame
    unfold receiver at hfound
    split at hfound
    · cases hfound
    · cases hfound
    · next ref =>
      split at hfound
      · next hmatches =>
        cases hfound
        exact ⟨rfl, hmatches⟩
      · cases hfound
    · cases hfound

theorem receiver?_congr {isStatic : Bool} {member : String}
    (h : ∀ object, target = some (.object object) →
      table.hostMatches (store'.payload object) = table.hostMatches (store.payload object)) :
    table.receiver? store' isStatic member target =
      table.receiver? store isStatic member target := by
  unfold receiver? receiver
  cases isStatic with
  | true => rfl
  | false =>
    cases target with
    | none => rfl
    | some value =>
      cases value with
      | object object => simp only [h object rfl]
      | _ => rfl

/-- What reading a field answers. -/
theorem answer_getField (table : CallTable) (store : Store) (index : Nat)
    (target : Option Value) :
    (table.getField index target).answer store =
      table.readyGet store index target >>= fun ready =>
        (ready.2.1 ready.2.2).answer store >>= fun native =>
          ready.1.produce table.lineage native := by
  have hopen : (table.getField index target).answer store =
      (HostM.ofExcept (table.readyGet store index target) >>= fun ready =>
        ready.2.1 ready.2.2 >>= fun native =>
          HostM.ofExcept (ready.1.produce table.lineage native)).answer store := rfl
  simp only [hopen, HostM.answer_ofExcept_bind, HostM.answer_bind_ofExcept]

end

section

variable {shape : Shape} {lineage : Option Lineage} {bindings : Bindings} {table : CallTable}
  {host : HostType} {layout : Layout} {store store' : Store} {index : Nat} {target : Option Value}

theorem hostMatches_eq_isSome_view (ht : shape.Tabled lineage bindings table)
    (hfollows : bindings.Follows host layout) (name : String) (payload : Payload) :
    table.hostMatches payload = (layout.view host name payload).isSome := by
  rw [hostMatches, ht.host, hfollows.host_eq]
  cases payload with
  | record found fields =>
    by_cases hfound : found = host <;> simp [Payload.host?, Layout.view, hfound]
  | proxy | foreign => rfl

/-- What a field of an object that shows a native reads as. -/
theorem answer_getField_of_view (ht : shape.Tabled lineage bindings table) {field : Field}
    {ref : ObjectRef} {native : Native} (hfield : shape.fields[index]? = some field)
    (hget : (bindings.fields.find? field.name).map BoundField.get =
      some (bindings.getter host field.name (layout.read field.name)))
    (hreceiver : table.receiver? store field.modifiers.isStatic field.name target = .ok (some ref))
    (hview : layout.view host field.name (store.payload ref) = some native) :
    (table.getField index target).answer store =
      (Slot.declared field.typeName).produce lineage native := by
  have hready := readyGet_eq_ok.2 ⟨bindings.tableField field,
    by rw [ht.fields, List.getElem?_map, hfield]; rfl, hreceiver, rfl, hget⟩
  have hanswer : (bindings.getter host field.name (layout.read field.name) (some ref)).answer
      store = .ok native := by
    rw [HostM.answer, Bindings.getter_eq, hview]
  rw [answer_getField, hready, ok_bind, hanswer, ok_bind, ht.lineage]
  rfl

/-- **Reading a field depends on what the object shows of it and on nothing else.** -/
theorem answer_getField_congr (ht : shape.Tabled lineage bindings table)
    (hfollows : bindings.Follows host layout)
    (hview : ∀ ref field, target = some (.object ref) → shape.fields[index]? = some field →
      layout.view host field.name (store'.payload ref) =
        layout.view host field.name (store.payload ref)) :
    (table.getField index target).answer store' = (table.getField index target).answer store := by
  have hready : table.readyGet store' index target = table.readyGet store index target := by
    unfold readyGet member
    rw [ht.fields, List.getElem?_map]
    cases hfield : shape.fields[index]? with
    | none => rfl
    | some field =>
      have hreceiver : table.receiver? store' field.modifiers.isStatic field.name target =
          table.receiver? store field.modifiers.isStatic field.name target :=
        receiver?_congr fun object htarget => by
          simp only [hostMatches_eq_isSome_view ht hfollows field.name,
            hview object field htarget hfield]
      simp only [Option.map_some, ok_bind, Bindings.tableField, hreceiver]
  rw [answer_getField, answer_getField, hready]
  cases h : table.readyGet store index target with
  | error e => rfl
  | ok ready =>
    obtain ⟨slot, get, ref⟩ := ready
    have hget : (get ref).answer store' = (get ref).answer store := by
      obtain ⟨entry, hentry, href, -, hget⟩ := readyGet_eq_ok.1 h
      rw [ht.fields, List.getElem?_map] at hentry
      obtain ⟨field, hfield, rfl⟩ := Option.map_eq_some_iff.1 hentry
      obtain ⟨bound, hbound, rfl⟩ := Option.map_eq_some_iff.1 hget
      refine (hfollows.binds hbound).answer_get_congr fun object hobject => ?_
      subst hobject
      exact hview object field (target_of_receiver? href).1 hfield
    simp only [ok_bind, hget]

/-- What a successful write has done: it stored the native of the value in the record of the
    object. -/
theorem exists_of_setField (ht : shape.Tabled lineage bindings table)
    (hfollows : bindings.Follows host layout) {value : Value} {after : Store}
    (h : table.setField index target value store = .ok () after) :
    ∃ ref field native fields fields', target = some (.object ref) ∧
      shape.fields[index]? = some field ∧
      (Slot.declared field.typeName).accept lineage value = .ok native ∧
      (bindings.fields.find? field.name).map BoundField.get =
        some (bindings.getter host field.name (layout.read field.name)) ∧
      table.receiver? store field.modifiers.isStatic field.name target = .ok (some ref) ∧
      store.payload ref = .record host fields ∧
      layout.write field.name native fields = .ok () fields' ∧
      after = store.put ref (.record host fields') := by
  change (HostM.ofExcept (table.readySet store index target value) >>= fun ready =>
    ready.1 ready.2.1 ready.2.2) store = _ at h
  cases hready : table.readySet store index target value with
  | error e =>
    rw [hready] at h
    cases h
  | ok ready =>
    obtain ⟨set, ref, native⟩ := ready
    rw [hready] at h
    change set ref native store = _ at h
    obtain ⟨entry, hentry, href, hnative, hset⟩ := exists_of_readySet hready
    rw [ht.fields, List.getElem?_map] at hentry
    obtain ⟨field, hfield, rfl⟩ := Option.map_eq_some_iff.1 hentry
    obtain ⟨bound, hbound, hset⟩ := Option.bind_eq_some_iff.1 hset
    cases hfollows.binds hbound with
    | readOnly => cases hset
    | static => cases hset
    | field =>
      cases hset
      cases ref with
      | none => cases h
      | some ref =>
        obtain ⟨htarget, hmatches⟩ := target_of_receiver? href
        obtain ⟨fields, hfields⟩ :=
          (hostMatches_iff.1 hmatches host (ht.host.trans hfollows.host_eq)).exists_payload
        rw [Bindings.setter_eq native hfields] at h
        cases hwrite : layout.write field.name native fields with
        | error e fields' =>
          rw [hwrite] at h
          cases h
        | ok done fields' =>
          rw [hwrite] at h
          cases h
          rw [ht.lineage] at hnative
          exact ⟨ref, field, native, fields, fields', htarget, hfield, hnative,
            by rw [hbound]; rfl, href, hfields, hwrite, rfl⟩

/-- A write that fails before the setter runs leaves the objects as they are. -/
theorem store_of_setField_error (ht : shape.Tabled lineage bindings table) {value : Value}
    {after : Store} {e : CallError}
    (h : table.setField index target value store = .error e after)
    (hbefore : ∀ gate ref run,
      shape.gate? lineage bindings (.write index target value) = some gate →
        ¬ gate.Admits store ref run) : after = store := by
  have hperform : table.perform (.write index target value) store = .error e after := by
    show EStateM.bind (table.setField index target value) _ store = _
    rw [EStateM.bind, h]
  rcases perform_cases ht (.write index target value) store with
    ⟨-, hbad⟩ | ⟨gate, hgate, hanswers⟩
  · rw [hbad] at hperform
    cases hperform
    rfl
  · cases hanswers with
    | refused _ hrefused =>
      rw [hrefused] at hperform
      cases hperform
      rfl
    | ran hadmits _ => exact absurd hadmits (hbefore gate _ _ hgate)

/-- **A write is seen by the next read and by nothing else**: the field reads as what was written,
    the other fields of the object and all fields of other objects read as before, and a write
    that fails before the setter runs changes nothing. -/
theorem setField_seen {mode : CompileMode} (hlawful : layout.Lawful)
    (hfollows : bindings.Follows host layout)
    (hcompile : shape.compileTable mode bindings = .ok table) (store : Store) (index : Nat)
    (value : Value) :
    (∀ ref after, table.setField index (some (.object ref)) value store = .ok () after →
      (table.getField index (some (.object ref))).answer after = .ok value ∧
      (∀ other field written, shape.fields[other]? = some field →
        shape.fields[index]? = some written → field.name ≠ written.name →
        (table.getField other (some (.object ref))).answer after =
          (table.getField other (some (.object ref))).answer store) ∧
      ∀ (shape' : Shape) (mode' : CompileMode) (bindings' : Bindings) (host' : HostType)
        (layout' : Layout) (table' : CallTable) (other : Nat) (target : Option Value),
        bindings'.Follows host' layout' → shape'.compileTable mode' bindings' = .ok table' →
        (∀ object, target = some (.object object) → object.id ≠ ref.id) →
        (table'.getField other target).answer after =
          (table'.getField other target).answer store) ∧
    ∀ target e after, table.setField index target value store = .error e after →
      (∀ gate ref run,
        shape.gate? mode.lineage bindings (.write index target value) = some gate →
          ¬ gate.Admits store ref run) →
      ∀ (table' : CallTable) (other : Nat) (target' : Option Value),
        (table'.getField other target').answer after =
          (table'.getField other target').answer store := by
  have ht := Shape.tabled_of_compileTable hcompile
  refine ⟨fun ref after hset => ?_, fun target e after herror hbefore table' other target' => ?_⟩
  · obtain ⟨object, field, native, fields, fields', htarget, hfield, hnative, hget, href, hfields,
      hwrite, rfl⟩ := exists_of_setField ht hfollows hset
    cases htarget
    have hrecord : (store.put ref (.record host fields')).payload ref = .record host fields' :=
      Store.payload_put_self _ hfields
    refine ⟨?_, fun other found written hfound hwritten hne => ?_,
      fun shape' mode' bindings' host' layout' table' other target hfollows' hcompile' hother => ?_⟩
    · have hreceiver : table.receiver? (store.put ref (.record host fields'))
          field.modifiers.isStatic field.name (some (.object ref)) = .ok (some ref) := by
        rw [← href]
        refine receiver?_congr fun object hobject => ?_
        cases hobject
        rw [hrecord, hfields]
        rfl
      have hview : layout.view host field.name
          ((store.put ref (.record host fields')).payload ref) = some native := by
        rw [hrecord, Layout.view, if_pos rfl, hlawful.read_write hwrite]
      rw [answer_getField_of_view ht hfield hget hreceiver hview]
      exact Slot.produce_of_accept hnative
    · obtain rfl : written = field := Option.some.inj (hwritten.symm.trans hfield)
      refine answer_getField_congr ht hfollows fun object found' hobject hfound' => ?_
      cases hobject
      obtain rfl : found' = found := Option.some.inj (hfound'.symm.trans hfound)
      rw [hrecord, hfields]
      simp only [Layout.view, if_true, hlawful.read_write_of_ne hne hwrite]
    · refine answer_getField_congr (Shape.tabled_of_compileTable hcompile') hfollows'
        fun object _ hobject _ => ?_
      rw [Store.payload_put_of_ne _ (hother object hobject)]
  · rw [store_of_setField_error ht herror hbefore]

end

/-! ## Two gauges -/

/-- A type with a number and a reference to another of its kind. -/
def gauge : Shape :=
  { Shape.ofName "a.Gauge" .cls with
    fields := [⟨"level", "a.Gauge", "double", {}, []⟩, ⟨"next", "a.Gauge", "a.Gauge", {}, []⟩] }

/-- The bindings of `gauge`: the fields are entries of the record. -/
def gaugeBindings : Bindings :=
  Bindings.ofHost "a.Gauge" ⟨7⟩
    |>.withField ⟨7⟩ "level" (Layout.entries.read "level") (Layout.entries.write "level")
    |>.withField ⟨7⟩ "next" (Layout.entries.read "next") (Layout.entries.write "next")

theorem follows_gaugeBindings : gaugeBindings.Follows ⟨7⟩ .entries :=
  ((Bindings.follows_ofHost "a.Gauge" ⟨7⟩ .entries).withBoundField .field).withBoundField .field

/-- The lineage of a build that has nothing but `gauge`. -/
def gaugeLineage : Lineage := .ofScope ⟨Catalog.empty.push (.ofName "a.Gauge" .cls), .empty⟩

/-- A gauge with a level and nothing next to it. -/
def gaugeRecord (level : UInt64) : Payload :=
  .record ⟨7⟩ (.ofList [("level", .double ⟨level⟩), ("next", .ref .null)])

/-- A store with two gauges, the second of which has no number for its level. -/
def gaugeStore : Store := ⟨#[gaugeRecord 0, gaugeRecord 0x7FF8000000000001], []⟩

/-- The second gauge is put next to the first, and a text is not. -/
theorem setField_seen_gauge :
    let first := some (Value.object ⟨0, "a.Gauge"⟩)
    let second := Value.object ⟨1, "a.Gauge"⟩
    ∃ table after, gauge.compileTable { lineage := some gaugeLineage } gaugeBindings = .ok table ∧
      table.setField 1 first second gaugeStore = .ok () after ∧
      (table.getField 1 first).answer after = .ok second ∧
      (table.getField 0 first).answer after = (table.getField 0 first).answer gaugeStore ∧
      (∀ index, (table.getField index (some second)).answer after =
        (table.getField index (some second)).answer gaugeStore) ∧
      ∃ e refused, table.setField 1 first (.text "b") gaugeStore = .error e refused ∧
        (table.getField 1 first).answer refused = (table.getField 1 first).answer gaugeStore := by
  intro first second
  obtain ⟨table, htable, after, hset, e, refused, herror⟩ : ∃ table,
      gauge.compileTable { lineage := some gaugeLineage } gaugeBindings = .ok table ∧
      ∃ after, table.setField 1 first second gaugeStore = .ok () after ∧
      ∃ e refused, table.setField 1 first (.text "b") gaugeStore = .error e refused :=
    ⟨_, rfl, _, rfl, _, _, rfl⟩
  obtain ⟨hseen, -⟩ :=
    setField_seen Layout.lawful_entries follows_gaugeBindings htable gaugeStore 1 second
  obtain ⟨hread, hfields, hothers⟩ := hseen _ after hset
  obtain ⟨-, hrefused⟩ :=
    setField_seen Layout.lawful_entries follows_gaugeBindings htable gaugeStore 1 (.text "b")
  refine ⟨table, after, htable, hset, hread, hfields 0 _ _ rfl rfl (by decide), fun index =>
    hothers gauge _ _ _ _ table index _ follows_gaugeBindings htable fun object hobject => ?_,
    e, refused, herror, hrefused first e refused herror (fun gate ref run hgate hadmits => ?_)
      table 1 first⟩
  · obtain rfl : ⟨1, "a.Gauge"⟩ = object := Value.object.inj (Option.some.inj hobject)
    decide
  · -- a text does not conform to the declared type
    cases hgate
    have hconforms := (List.forall₂_cons.1 hadmits.arguments).1
    exact absurd (Slot.admits_iff.2 hconforms) (by decide)

end CallTable

end TypeAtlas
