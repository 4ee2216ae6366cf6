/-
  Blobs, written and read back.

  * `reads_shape`: what is written of a shape behind its pool is read as the
    shape;
  * `ofBytes_of_toBytes`: a shape that can be written is read from its blob, and
    from its blob in Base64, exactly as it was: every list in its order, floats
    bit by bit, and no proxy methods kept apart from an empty list of them.
-/
import TypeAtlas.Proofs.Blob.Parts
import TypeAtlas.Proofs.Text.Base64

namespace TypeAtlas

open TypeAtlas.Wire

namespace Blob

variable {source : Source} {pool : Pool}

/-! ## Flags and widths of a shape -/

theorem kindBits_lt (kind : TypeKind) : kindBits kind < 4 := by
  cases kind <;> decide

theorem kindOf_of_mod {n : Nat} {kind : TypeKind} (h : n % 4 = kindBits kind) :
    Source.kindOf n = kind := by
  unfold Source.kindOf
  rw [h]
  cases kind <;> rfl

/-- The flags of a type above the two bits of its kind. -/
theorem toNat_typeFlags (shape : Shape) :
    (typeFlags shape).toNat = kindBits shape.kind + 4 * flagNumber
      [shape.modifiers.isAbstract, shape.modifiers.isSealed, shape.modifiers.isData,
        shape.modifiers.isCompanion, shape.superclass.isSome] := by
  have hkind := kindBits_lt shape.kind
  have hflags := flagNumber_lt [shape.modifiers.isAbstract, shape.modifiers.isSealed,
    shape.modifiers.isData, shape.modifiers.isCompanion, shape.superclass.isSome]
  simp only [List.length_cons, List.length_nil] at hflags
  simp only [typeFlags]
  rw [toNat_putFlags (by simp), UInt8.toNat_ofNat']
  omega

theorem kindOf_typeFlags (shape : Shape) :
    Source.kindOf (typeFlags shape).toNat = shape.kind := by
  have hkind := kindBits_lt shape.kind
  refine kindOf_of_mod ?_
  rw [toNat_typeFlags]
  omega

theorem bit_typeFlags (shape : Shape) (i : Nat) :
    Source.bit (typeFlags shape) (i + 2) =
      [shape.modifiers.isAbstract, shape.modifiers.isSealed, shape.modifiers.isData,
        shape.modifiers.isCompanion, shape.superclass.isSome].getD i false := by
  have hkind := kindBits_lt shape.kind
  rw [← testBit_flagNumber, Source.bit, toNat_typeFlags, Nat.testBit_succ, Nat.testBit_succ]
  congr 1
  omega

theorem toNat_layoutByte (interfaces constructors methods fields : Width) :
    (layoutByte interfaces constructors methods fields).toNat =
      interfaces.selector + 4 * constructors.selector + 16 * methods.selector +
        64 * fields.selector := by
  have h₁ := interfaces.selector_lt
  have h₂ := constructors.selector_lt
  have h₃ := methods.selector_lt
  have h₄ := fields.selector_lt
  rw [layoutByte, UInt8.toNat_ofNat']
  omega

/-- The four widths are read off the layout. -/
theorem widths_layoutByte (interfaces constructors methods fields : Width) :
    let layout := (layoutByte interfaces constructors methods fields).toNat
    Width.ofSelector (layout >>> (2 * 0)) = interfaces ∧
      Width.ofSelector (layout >>> (2 * 1)) = constructors ∧
      Width.ofSelector (layout >>> (2 * 2)) = methods ∧
      Width.ofSelector (layout >>> (2 * 3)) = fields := by
  have h₁ := interfaces.selector_lt
  have h₂ := constructors.selector_lt
  have h₃ := methods.selector_lt
  have h₄ := fields.selector_lt
  rw [toNat_layoutByte]
  exact ⟨ofSelector_of_mod (by omega), ofSelector_of_mod (by omega),
    ofSelector_of_mod (by omega), ofSelector_of_mod (by omega)⟩

/-! ## The optional parts of a shape -/

theorem reads_superclass (hs : source.Holds pool) {superclass : Option String}
    {bytes : List UInt8} (h : putSuperclass pool superclass = .ok bytes) :
    Reads (source.superclass superclass.isSome) bytes superclass := by
  cases superclass with
  | none =>
    simp only [putSuperclass, Except.ok.injEq] at h
    subst h
    exact Reads.pure none
  | some name => exact (reads_ref hs h).map rfl

/-- No proxy methods are a zero, and a list of them is never written as one. -/
theorem reads_proxyMethods (hs : source.Holds pool) {methods : Option (List Method)}
    {bytes : List UInt8} (h : putProxyMethods pool methods = .ok bytes) :
    Reads source.proxyMethods bytes methods := by
  unfold Source.proxyMethods
  cases methods with
  | none =>
    simp only [putProxyMethods, Except.ok.injEq] at h
    subst h
    exact (reads_scan (Reads.byte 0)).bind (Reads.pure none)
  | some methods =>
    simp only [putProxyMethods, bind_eq_ok, pure_eq_ok, widthOf_eq_ok] at h
    obtain ⟨width, ⟨hcount, hwidth⟩, body, hbody, rfl⟩ := h
    have hfits : methods.length < capacity width.size :=
      hwidth ▸ Width.lt_of_fit hcount (Nat.le_refl _)
    have hlist := (restores_method hs).counted hbody hfits source .proxyMethods
    clear hwidth
    cases width with
    | one => exact (reads_scan (Reads.byte 1)).bind (hlist.map rfl)
    | two => exact (reads_scan (Reads.byte 2)).bind (hlist.map rfl)
    | three => exact (reads_scan (Reads.byte 3)).bind (hlist.map rfl)
    | four => exact (reads_scan (Reads.byte 4)).bind (hlist.map rfl)

/-! ## The shape -/

/-- **A shape that keeps the rules is read as it was written.** -/
theorem reads_shape (hs : source.Holds pool) {shape : Shape} (hcheck : shape.check = .ok ())
    {bytes : List UInt8} (h : putShape pool shape = .ok bytes) :
    Reads source.shape bytes shape := by
  simp only [putShape, bind_eq_ok, pure_eq_ok, widthOf_eq_ok] at h
  obtain ⟨bytes₁, hsimple, bytes₂, hname, _, ⟨hinterfaces, rfl⟩, _, ⟨hconstructors, rfl⟩,
    _, ⟨hmethods, rfl⟩, _, ⟨hfields, rfl⟩, bytes₃, hsuperclass, bytes₄, hputInterfaces,
    bytes₅, hannotations, bytes₆, hputConstructors, bytes₇, hputMethods, bytes₈, hputFields,
    bytes₉, hproxy, rfl⟩ := h
  have hkind := kindOf_typeFlags shape
  have hbit := bit_typeFlags shape
  obtain ⟨hwidth₀, hwidth₁, hwidth₂, hwidth₃⟩ := widths_layoutByte
    (.fit shape.interfaces.length) (.fit shape.constructors.length)
    (.fit shape.methods.length) (.fit shape.fields.length)
  have hreadInterfaces := (restores_ref hs).counted hputInterfaces
    (Width.lt_of_fit hinterfaces (Nat.le_refl _)) source .interfaces
  have hreadConstructors := (restores_constructor hs).counted hputConstructors
    (Width.lt_of_fit hconstructors (Nat.le_refl _)) source .constructors
  have hreadMethods := (restores_method hs).counted hputMethods
    (Width.lt_of_fit hmethods (Nat.le_refl _)) source .methods
  have hreadFields := (restores_field hs).counted hputFields
    (Width.lt_of_fit hfields (Nat.le_refl _)) source .fields
  have hreadSuperclass := reads_superclass hs hsuperclass
  have hreadProxy := reads_proxyMethods hs hproxy
  have hbit₂ : Source.bit (typeFlags shape) 2 = shape.modifiers.isAbstract := hbit 0
  have hbit₃ : Source.bit (typeFlags shape) 3 = shape.modifiers.isSealed := hbit 1
  have hbit₄ : Source.bit (typeFlags shape) 4 = shape.modifiers.isData := hbit 2
  have hbit₅ : Source.bit (typeFlags shape) 5 = shape.modifiers.isCompanion := hbit 3
  have hbit₆ : Source.bit (typeFlags shape) 6 = shape.superclass.isSome := hbit 4
  have hbit₇ : Source.bit (typeFlags shape) 7 = false := hbit 5
  unfold Source.shape
  simp only [List.append_assoc]
  refine (reads_ref hs hsimple).bind ((reads_ref hs hname).bind
    ((reads_scan (Reads.byte (typeFlags shape))).cons (Reads.passing ?_
      ((reads_scan (Reads.byte (layoutByte _ _ _ _))).cons ?_))))
  · rw [hbit₇]
    exact Bool.false_ne_true
  · simp only [hwidth₀, hwidth₁, hwidth₂, hwidth₃, hbit₂, hbit₃, hbit₄, hbit₅, hbit₆, hkind]
    refine (hreadSuperclass.bind (hreadInterfaces.bind
      ((restores_annotations hs hannotations).2.bind (hreadConstructors.bind
        (hreadMethods.bind (hreadFields.bind (hreadProxy.ending ?_))))))).of_eq ?_
    · -- what was read is the shape itself, and its rules are checked once more
      simp only [hcheck]
      exact Reads.pure shape
    · simp

/-! ## The blob -/

theorem toBytes_eq_ok {shape : Shape} {bytes : List UInt8} (h : shape.toBytes = .ok bytes) :
    shape.check = .ok () ∧ ∃ texts body, (Pool.ofTexts shape.texts).write = .ok texts ∧
      putShape (Pool.ofTexts shape.texts) shape = .ok body ∧
      mark ++ UInt8.ofNat version :: (texts ++ body) = bytes := by
  unfold Shape.toBytes at h
  cases hcheck : shape.check with
  | error fault =>
    rw [hcheck] at h
    cases h
  | ok _ =>
    rw [hcheck] at h
    simp only [bind_eq_ok, pure_eq_ok] at h
    obtain ⟨texts, htexts, body, hbody, hbytes⟩ := h
    exact ⟨rfl, texts, body, htexts, hbody, hbytes⟩

/-- **What is written of a shape is a whole blob that is read as the shape**, with and
    without guards on the counts. -/
theorem readBlob_of_toBytes {shape : Shape} {bytes : List UInt8}
    (h : shape.toBytes = .ok bytes) (guarded : Bool) :
    (readBlob guarded).run bytes = .ok shape := by
  obtain ⟨hcheck, texts, body, htexts, hbody, rfl⟩ := toBytes_eq_ok h
  have hmark := reads_scan (Reads.take mark)
  have hversion := reads_scan (Reads.byte (UInt8.ofNat version))
  have hpool := reads_pool htexts guarded
  have hs : Source.Holds ⟨⟨(Pool.ofTexts shape.texts).texts, (Pool.ofTexts shape.texts).indexWidth⟩,
      guarded⟩ (Pool.ofTexts shape.texts) := ⟨rfl, rfl, (write_eq_ok htexts).1⟩
  have hshape := reads_shape hs hcheck hbody
  have hbytes : mark ++ UInt8.ofNat version :: (texts ++ body) =
      mark ++ ([UInt8.ofNat version] ++ (texts ++ (body ++ []))) := by simp
  unfold Read.run readBlob Source.byte
  rw [hbytes, show Cursor.start = Cursor.at_ 0 from rfl, hmark.bind_at]
  simp only [ne_eq, not_true_eq_false, if_false]
  rw [hversion.bind_at]
  rw [if_neg (by decide), hpool.bind_at, hshape.bind_at]
  rfl

/-! ## A blob byte by byte -/

/-- An interface with an annotation whose numbers are not numbers, a method with a
    generic result, and no proxy methods but an empty list of them. -/
def marker : Shape where
  simpleName := "I"
  name := "a.I"
  kind := .interface
  modifiers := { isAbstract := true }
  superclass := none
  interfaces := []
  annotations := [⟨"a.I", "I", none, .ofList
    [("v", .list [.float ⟨0x7FC00001⟩, .list [], .double ⟨0xFFF8000000000001⟩])]⟩]
  constructors := []
  methods := [⟨"v", "a.I", [], "I", {}, [], [], .wildcard [.array (.named "I")] []⟩]
  fields := []
  proxyMethods := some []

/-- The blob of `marker`. -/
def markerBytes : List UInt8 :=
  [80, 77, 65, 68, 4, 0, 3, 1, 73, 3, 97, 46, 73, 1, 118, 0, 1, 5, 0, 0, 0, 1, 1, 0, 0, 0, 1, 2,
    7, 3, 5, 1, 0, 192, 127, 7, 0, 6, 1, 0, 0, 0, 0, 0, 248, 255, 0, 1, 2, 1, 0, 0, 0, 0, 0, 0, 0,
    0, 3, 0, 1, 4, 0, 0, 0, 0, 0, 1, 0]

theorem texts_marker : (Pool.ofTexts marker.texts).texts = #["I", "a.I", "v"] := by
  rw [← Array.toList_inj, Pool.ofTexts, Pool.toList_texts_foldl]
  decide +kernel

theorem toBytes_marker : marker.toBytes = .ok markerBytes := by
  have htexts := texts_marker
  unfold Shape.toBytes
  generalize Pool.ofTexts marker.texts = pool at htexts
  have href := putRef_of_texts htexts (by decide)
  have hpool : pool.write = .ok [0, 3, 1, 73, 3, 97, 46, 73, 1, 118] := by
    simp only [Pool.write, Pool.size, Pool.longest, Pool.indexWidth, htexts]
    decide +kernel
  have hproperties : ∀ value : AnnotationValue, (Table.ofList [("v", value)]).entries =
      [("v", value)] := fun value => Table.entries_ofList (by simp)
  simp only [hpool, show marker.check = .ok () from rfl]
  simp only [marker, putShape, putAnnotations, putNote, putMethod, putProxyMethods,
    putSuperclass, putList, putAll, List.mapM_cons, List.mapM_nil, putOption, putProperty,
    putValue, putValues, putType, putTypes, nestingLimit, hproperties,
    href 0 "I" rfl, href 1 "a.I" rfl, href 2 "v" rfl]
  rfl

end Blob

/-! ## Bytes and Base64 -/

/-- A shape is read from its blob in Base64. -/
theorem Shape.ofBase64_eq {shape : Shape} {text : String} (h : shape.toBase64 = .ok text) :
    Shape.ofBase64 text = .ok shape := by
  obtain ⟨bytes, hbytes, rfl⟩ := map_eq_ok.1 h
  rw [Shape.ofBase64, Text.Base64.decode_encode]
  exact Blob.readBlob_of_toBytes hbytes true

/-- **A shape is read as it was written**, from bytes and from Base64. -/
theorem Shape.ofBytes_of_toBytes (shape : Shape) :
    (∀ bytes, shape.toBytes = .ok bytes → Shape.ofBytes bytes = .ok shape) ∧
      ∀ text, shape.toBase64 = .ok text → Shape.ofBase64 text = .ok shape :=
  ⟨fun _ h => Blob.readBlob_of_toBytes h true, fun _ h => Shape.ofBase64_eq h⟩

theorem Shape.ofBytes_marker : Blob.marker.toBytes = .ok Blob.markerBytes ∧
    Shape.ofBytes Blob.markerBytes = .ok Blob.marker ∧
    Blob.marker.toBase64 = .ok (Text.Base64.encode Blob.markerBytes) ∧
    Shape.ofBase64 (Text.Base64.encode Blob.markerBytes) = .ok Blob.marker := by
  have hbytes := Blob.toBytes_marker
  have htext : Blob.marker.toBase64 = .ok (Text.Base64.encode Blob.markerBytes) := by
    rw [Shape.toBase64, hbytes]
    rfl
  obtain ⟨hread, hreadText⟩ := Shape.ofBytes_of_toBytes Blob.marker
  exact ⟨hbytes, hread _ hbytes, htext, hreadText _ htext⟩

end TypeAtlas
