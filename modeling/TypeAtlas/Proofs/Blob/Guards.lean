/-
  The guards of the reader.

  The guarded reader compares each count with the bytes that are left.  Every item of a
  list takes at least one byte, whatever its kind and however deep it is nested, and
  every text of the pool at least the bytes of its length.  So the guards refuse only
  what cannot be read to its end.

  * `BlobError.overcounts`: the refusals of the guards;
  * `Blob.Guards`: the guarded reader of a part only fails where the plain one does;
  * `guards_value`, `guards_type`: values and generic types, by induction on the levels
    that may still be entered;
  * `Shape.ofBytes_unguarded`: the reader accepts what it would accept without guards.
-/
import TypeAtlas.Proofs.Blob.PrefixFree
import TypeAtlas.Proofs.Wire.Foresees

namespace TypeAtlas

open TypeAtlas.Wire

/-- Whether a blob is refused because more items are counted than the bytes left can hold. -/
def BlobError.overcounts : BlobError → Bool
  | .misformed (.poolCount _ _) => true
  | .misformed (.count _ _ _) => true
  | _ => false

namespace Blob

variable {α : Type} {k : Nat}

/-- The guarded reader of a part only fails where the plain one does, maybe earlier; both take at
    least `k` bytes. -/
abbrev Guards (k : Nat) (guarded plain : Read α) : Prop :=
  Foresees (fun e : BlobError => e.overcounts = true) k guarded plain

theorem guards_scan {scan : Scan α} (h : Foresees (fun _ => False) k scan scan) :
    Guards k (ofScan scan) (ofScan scan) :=
  h.adapt BlobError.scan fun _ => iff_false_intro Bool.false_ne_true

theorem guards_times {guarded plain : Read α} (h : Guards k guarded plain) (n : Nat)
    (done : List α) : Guards (n * k) (times guarded n done) (times plain n done) := by
  induction n generalizing done with
  | zero => exact (Foresees.pure _).mono (Nat.le_of_eq (Nat.zero_mul k))
  | succ n ih =>
    rw [Nat.succ_mul, Nat.add_comm]
    exact h.bind fun item => ih (item :: done)

theorem guards_number (width : Width) :
    Guards width.size (ofScan (Scan.number width)) (ofScan (Scan.number width)) :=
  guards_scan (.number width)

theorem guards_byte : Guards 1 Source.byte Source.byte := guards_scan Foresees.byte

/-! ## The pool -/

theorem guards_readText (length : Width) :
    Guards length.size (PoolTable.readText length) (PoolTable.readText length) :=
  guards_scan ((Foresees.number length).head fun k => .text k)

theorem guards_pool : Guards 1 (PoolTable.read true) (PoolTable.read false) := by
  unfold PoolTable.read
  refine guards_byte.head fun header => .check Bool.false_ne_true ?_
  refine (guards_number _).andThen fun count => ?_
  have htexts := guards_times (guards_readText (.ofSelector (header.toNat / 16))) count []
  refine Foresees.weak (.room (fun remaining => BlobError.misformed (.poolCount count remaining))
    (fun _ => rfl) ?_)
  exact htexts.head fun texts => .pure _

theorem guards_readRef (table : PoolTable) : Guards 1 table.readRef table.readRef := by
  unfold PoolTable.readRef PoolTable.text?
  refine ((guards_number _).mono (Width.size_pos _)).head fun index => ?_
  cases table.texts[index]? with
  | some s => exact .pure s
  | none => exact .throw Bool.false_ne_true

namespace Source

variable (pool : PoolTable)

/-! ## Counts and lists -/

theorem guards_ref : Guards 1 (ref ⟨pool, true⟩) (ref ⟨pool, false⟩) := guards_readRef pool

/-- A guard on a count refuses nothing if what is read behind it takes as many bytes. -/
theorem guards_count {next next' : Nat → Read α} (part : Part) (width : Width)
    (h : ∀ n, Guards n (next n) (next' n)) :
    Guards 1 (count ⟨pool, true⟩ part width >>= next)
      (count ⟨pool, false⟩ part width >>= next') := by
  unfold count
  rw [bind_assoc, bind_assoc]
  refine ((guards_number width).mono width.size_pos).head fun n => ?_
  exact (Foresees.room_bind (fun remaining => BlobError.misformed (.count part n remaining))
    (fun _ => rfl) (h n)).weak

theorem guards_size {next next' : Nat → Read α} (part : Part)
    (h : ∀ n, Guards n (next n) (next' n)) :
    Guards 1 (size ⟨pool, true⟩ part >>= next) (size ⟨pool, false⟩ part >>= next') := by
  unfold size
  rw [bind_assoc, bind_assoc]
  refine guards_byte.head fun selector => ?_
  split
  · exact fun cursor => .error Bool.false_ne_true (.refl cursor)
  · exact (guards_count pool part _ h).weak

variable {guarded plain : Read α}

/-- Items that take a byte each are as many bytes at least. -/
theorem guards_items (h : Guards 1 guarded plain) (n : Nat) :
    Guards n (times guarded n []) (times plain n []) :=
  (guards_times h n []).mono (Nat.le_of_eq (Nat.mul_one n).symm)

theorem guards_list (part : Part) (h : Guards 1 guarded plain) :
    Guards 1 (list ⟨pool, true⟩ part guarded) (list ⟨pool, false⟩ part plain) :=
  guards_size pool part (guards_items h)

theorem guards_counted (part : Part) (width : Width) (h : Guards 1 guarded plain) :
    Guards 1 (counted ⟨pool, true⟩ part width guarded) (counted ⟨pool, false⟩ part width plain) :=
  guards_count pool part width (guards_items h)

theorem guards_option (mistake : UInt8 → Misformed)
    (hmistake : ∀ presence, (BlobError.misformed (mistake presence)).overcounts = false)
    (h : Guards 1 guarded plain) : Guards 1 (option mistake guarded) (option mistake plain) := by
  unfold option
  refine guards_byte.head fun presence => ?_
  split
  · exact .pure none
  · exact (h.map some).weak
  · exact .throw (Bool.eq_false_iff.1 (hmistake _))

/-! ## Values and generic types -/

/-- **Every value takes at least a byte**, with or without guards. -/
theorem guards_value (room : Nat) :
    Guards 1 (value ⟨pool, true⟩ room) (value ⟨pool, false⟩ room) := by
  induction room with
  | zero => exact .throw Bool.false_ne_true
  | succ room ih =>
    have hlist := fun width =>
      ((guards_counted pool .values width ih).map AnnotationValue.list).weak
    unfold value
    refine guards_byte.head fun tag => ?_
    split
    · exact .pure _
    · exact ((guards_ref pool).map _).weak
    · refine guards_byte.andThen fun bit => ?_
      split
      · exact .pure _
      · exact .pure _
      · exact .throw Bool.false_ne_true
    · exact ((guards_scan .int32).map _).weak
    · exact ((guards_scan .int64).map _).weak
    · exact ((guards_scan .float32).map _).weak
    · exact ((guards_scan .float64).map _).weak
    · exact hlist .one
    · exact hlist .two
    · exact hlist .three
    · exact hlist .four
    · exact ((guards_ref pool).map _).weak
    · exact .throw Bool.false_ne_true

/-- **Every generic type takes at least a byte**, with or without guards. -/
theorem guards_type (room : Nat) :
    Guards 1 (type ⟨pool, true⟩ room) (type ⟨pool, false⟩ room) := by
  induction room with
  | zero => exact .throw Bool.false_ne_true
  | succ room ih =>
    have hargs := guards_list pool .typeArguments ih
    have howner : Guards 1 (option .ownerPresence (type ⟨pool, true⟩ room))
      (option .ownerPresence (type ⟨pool, false⟩ room)) := guards_option _ (fun _ => rfl) ih
    unfold type
    refine guards_byte.head fun tag => ?_
    split
    · exact ((guards_ref pool).map _).weak
    · exact (guards_ref pool).andThen fun raw => howner.andThen fun owner =>
        hargs.andThen fun args => .pure _
    · exact (guards_ref pool).andThen fun name => hargs.andThen fun bounds => .pure _
    · exact hargs.andThen fun upper => hargs.andThen fun lower => .pure _
    · exact (ih.map _).weak
    · exact .throw Bool.false_ne_true

/-! ## Annotations and members -/

theorem guards_property : Guards 1 (property ⟨pool, true⟩) (property ⟨pool, false⟩) :=
  (guards_ref pool).head fun _ => (guards_value pool nestingLimit).andThen fun _ => .pure _

theorem guards_note : Guards 1 (note ⟨pool, true⟩) (note ⟨pool, false⟩) :=
  (guards_ref pool).head fun _ => (guards_ref pool).andThen fun _ =>
    (guards_option .namePresence (fun _ => rfl) (guards_ref pool)).andThen fun _ =>
      (guards_list pool .properties (guards_property pool)).andThen fun _ => .pure _

theorem guards_annotations : Guards 1 (annotations ⟨pool, true⟩) (annotations ⟨pool, false⟩) :=
  guards_list pool .annotations (guards_note pool)

theorem guards_parameterAnnotations :
    Guards 1 (parameterAnnotations ⟨pool, true⟩) (parameterAnnotations ⟨pool, false⟩) :=
  guards_list pool .parameterAnnotations (guards_annotations pool)

theorem guards_parameters :
    Guards 1 (list ⟨pool, true⟩ .parameters (ref ⟨pool, true⟩))
      (list ⟨pool, false⟩ .parameters (ref ⟨pool, false⟩)) :=
  guards_list pool .parameters (guards_ref pool)

theorem guards_memberModifiers : Guards 1 memberModifiers memberModifiers := by
  unfold memberModifiers
  exact guards_byte.head fun flags => .check Bool.false_ne_true (.pure _)

theorem guards_constructor : Guards 1 (constructor ⟨pool, true⟩) (constructor ⟨pool, false⟩) :=
  (guards_ref pool).head fun _ => guards_memberModifiers.andThen fun _ =>
    (guards_parameters pool).andThen fun _ => (guards_annotations pool).andThen fun _ =>
      (guards_parameterAnnotations pool).andThen fun _ => .pure _

theorem guards_method : Guards 1 (method ⟨pool, true⟩) (method ⟨pool, false⟩) :=
  (guards_ref pool).head fun _ => (guards_ref pool).andThen fun _ =>
    (guards_ref pool).andThen fun _ => guards_memberModifiers.andThen fun _ =>
      (guards_parameters pool).andThen fun _ => (guards_annotations pool).andThen fun _ =>
        (guards_parameterAnnotations pool).andThen fun _ =>
          (guards_type pool nestingLimit).andThen fun _ => .pure _

theorem guards_field : Guards 1 (field ⟨pool, true⟩) (field ⟨pool, false⟩) :=
  (guards_ref pool).head fun _ => (guards_ref pool).andThen fun _ =>
    (guards_ref pool).andThen fun _ => guards_memberModifiers.andThen fun _ =>
      (guards_annotations pool).andThen fun _ => .pure _

/-! ## The shape -/

theorem guards_superclass (present : Bool) :
    Guards 0 (superclass ⟨pool, true⟩ present) (superclass ⟨pool, false⟩ present) := by
  cases present with
  | true => exact ((guards_ref pool).map some).weak
  | false => exact .pure none

theorem guards_proxyMethods :
    Guards 1 (proxyMethods ⟨pool, true⟩) (proxyMethods ⟨pool, false⟩) := by
  have hcounted := fun width =>
    ((guards_counted pool .proxyMethods width (guards_method pool)).map some).weak
  unfold proxyMethods
  refine guards_byte.head fun presence => ?_
  split
  · exact .pure none
  · exact hcounted .one
  · exact hcounted .two
  · exact hcounted .three
  · exact hcounted .four
  · exact .throw Bool.false_ne_true

theorem guards_shape : Guards 1 (shape ⟨pool, true⟩) (shape ⟨pool, false⟩) := by
  unfold shape
  refine (guards_ref pool).head fun simpleName => (guards_ref pool).andThen fun name => ?_
  refine guards_byte.andThen fun flags => .check Bool.false_ne_true ?_
  refine guards_byte.andThen fun layout => (guards_superclass pool _).andThen fun superclass => ?_
  refine (guards_counted pool .interfaces _ (guards_ref pool)).andThen fun interfaces => ?_
  refine (guards_annotations pool).andThen fun annotations => ?_
  refine (guards_counted pool .constructors _ (guards_constructor pool)).andThen
    fun constructors => ?_
  refine (guards_counted pool .methods _ (guards_method pool)).andThen fun methods => ?_
  refine (guards_counted pool .fields _ (guards_field pool)).andThen fun fields => ?_
  refine (guards_proxyMethods pool).andThen fun proxyMethods => ?_
  extract_lets shape
  split
  · exact .pure _
  · exact .throw Bool.false_ne_true

end Source

/-! ## Blobs -/

theorem guards_front : Guards 0 (readFront true) (readFront false) := by
  unfold readFront
  refine (guards_scan (.take _)).andThen fun found => .check Bool.false_ne_true ?_
  refine guards_byte.andThen fun version => .check Bool.false_ne_true ?_
  exact guards_pool.andThen fun pool => (Source.guards_shape pool).weak

theorem guards_atEnd (shape : Shape) : Guards 0 (atEnd shape) (atEnd shape) := by
  intro cursor
  rw [atEnd_run]
  split
  · exact .ok (.refl cursor)
  · exact .error Bool.false_ne_true (.refl cursor)

/-- The guarded reader of blobs only fails where the plain one does, maybe earlier. -/
theorem guards_blob : Guards 0 (readBlob true) (readBlob false) := by
  rw [readBlob_eq, readBlob_eq]
  exact guards_front.andThen guards_atEnd

end Blob

/-- **The guards refuse no blob that could be read without them.**  Any list of bytes that makes
    the reader fail makes the reader without guards fail, too: in the same way and at the same
    place, or, if a guard refused a count, in another way and not before the count. -/
theorem Shape.ofBytes_unguarded (bytes : List UInt8) :
    (∀ shape, Shape.ofBytes bytes = .ok shape ↔
      (Blob.readBlob false).run bytes = .ok shape) ∧
      ∀ e next, Blob.readBlob true (.start bytes) = .error e next →
        ∃ e' next', Blob.readBlob false (.start bytes) = .error e' next' ∧
          e'.overcounts = false ∧ (e.overcounts = false → e' = e ∧ next' = next) ∧
          next.position ≤ next'.position := by
  have hblob := Blob.guards_blob (.start bytes)
  simp only [Shape.ofBytes, Blob.Read.run]
  generalize Blob.readBlob true (.start bytes) = result,
    Blob.readBlob false (.start bytes) = result' at hblob ⊢
  cases hblob with
  | ok _ =>
    refine ⟨fun _ => Iff.rfl, ?_⟩
    rintro _ _ ⟨⟩
  | error he _ =>
    refine ⟨fun _ => Iff.rfl, ?_⟩
    rintro _ _ ⟨⟩
    exact ⟨_, _, rfl, Bool.eq_false_iff.2 he, fun _ => ⟨rfl, rfl⟩, Nat.le_refl _⟩
  | early he he' _ hlater =>
    refine ⟨fun _ => by simp, ?_⟩
    rintro _ _ ⟨⟩
    exact ⟨_, _, rfl, Bool.eq_false_iff.2 he', fun hnot => absurd he (Bool.eq_false_iff.1 hnot),
      hlater.position_le⟩

/-- A pool that counts a text which is not there. -/
example :
    Shape.ofBytes (Blob.mark ++ [Blob.version.toUInt8, 0, 1]) =
        .error (.misformed (.poolCount 1 0)) ∧
      (Blob.readBlob false).run (Blob.mark ++ [Blob.version.toUInt8, 0, 1]) =
        .error (.scan (.endOfInput 7)) := ⟨rfl, rfl⟩

end TypeAtlas
