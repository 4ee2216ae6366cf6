/-
  Parts of a blob, read and written again.

  Each part of a blob can be written as it was read, in no more bytes.

  * `rewrites_value`, `rewrites_type`: values and generic types, by induction on the
    levels that may still be entered;
  * `rewrites_note`: of properties with one name only the last is written;
  * `rewrites_constructor`, `rewrites_method`, `rewrites_field`: members;
  * `rewrites_shape`: the shape.
-/
import TypeAtlas.Proofs.Blob.Costs

namespace TypeAtlas.Blob

open TypeAtlas.Wire

namespace Source

variable {source : Source} {cursor middle next : Cursor}

/-! ## Values -/

theorem textsOfAll_eq (items : List AnnotationValue) :
    AnnotationValue.textsOfAll items = items.flatMap AnnotationValue.texts := by
  induction items with
  | nil => rfl
  | cons value rest ih => rw [AnnotationValue.textsOfAll, ih, List.flatMap_cons]

/-- A list value, whatever width its count was read with. -/
theorem behind_items {room : Nat} (width : Width)
    (h : source.Rewrites (source.value room) AnnotationValue.texts (putValue · room)) :
    source.Behind 1 (.list <$> source.counted .values width (source.value room))
      AnnotationValue.texts (putValue · (room + 1)) := by
  intro start cursor next value hspent hmap
  obtain ⟨items, hread, rfl⟩ := map_run_eq_ok.1 hmap
  obtain ⟨hitems, hlimit⟩ := h.counted hread
  refine (hitems.behind hspent (UInt8.ofNat (7 + (Width.fit items.length).selector))).of_eq ?_
    fun pool => ?_
  · rw [AnnotationValue.texts, textsOfAll_eq]
    exact fun _ => Iff.rfl
  · simp only [putValue, widthOf_of_lt hlimit, ok_bind, putValues_eq, putBoth, putCount]
    cases putAll (putValue pool room) items <;> rfl

/-- **Values can be written as they were read.** -/
theorem rewrites_value (source : Source) (room : Nat) :
    source.Rewrites (source.value room) AnnotationValue.texts (putValue · room) := by
  induction room with
  | zero => rintro cursor next value ⟨⟩
  | succ room ih =>
    unfold Source.value
    refine .byte fun tag => ?_
    split
    · exact .pure [0] (Nat.le_refl 1) rfl fun _ => rfl
    · exact .map source.rewrites_ref 1 (fun _ => rfl) fun _ _ => rfl
    · refine .byte fun bit => ?_
      split
      · exact .pure [2, 0] (Nat.le_refl 2) rfl fun _ => rfl
      · exact .pure [2, 1] (Nat.le_refl 2) rfl fun _ => rfl
      · exact .refuse
    · exact .map (rewrites_number fun n => length_toBytes 4 n.toUInt32.toNat) 3
        (fun _ => rfl) fun _ _ => rfl
    · exact .map (rewrites_number fun n => length_toBytes 8 n.toUInt64.toNat) 4
        (fun _ => rfl) fun _ _ => rfl
    · exact .map (rewrites_number fun x => length_toBytes 4 x.bits.toNat) 5
        (fun _ => rfl) fun _ _ => rfl
    · exact .map (rewrites_number fun x => length_toBytes 8 x.bits.toNat) 6
        (fun _ => rfl) fun _ _ => rfl
    · exact behind_items .one ih
    · exact behind_items .two ih
    · exact behind_items .three ih
    · exact behind_items .four ih
    · exact .map source.rewrites_ref 11 (fun _ => rfl) fun _ _ => rfl
    · exact .refuse

/-! ## Generic types -/

theorem namesOfAll_eq (items : List TypeExpr) :
    TypeExpr.namesOfAll items = items.flatMap TypeExpr.names := by
  induction items with
  | nil => rfl
  | cons expr rest ih => rw [TypeExpr.namesOfAll, ih, List.flatMap_cons]

theorem namesOfOwner_eq (owner : Option TypeExpr) :
    TypeExpr.namesOfOwner owner = owner.toList.flatMap TypeExpr.names := by
  cases owner <;> simp [TypeExpr.namesOfOwner]

theorem putTypes_nil (pool : Pool) (room : Nat) (items : List TypeExpr) :
    putTypes pool room [] items = putAll (putType pool room) items := by
  rw [putTypes_eq]
  cases putAll (putType pool room) items <;> rfl

/-- **Generic types can be written as they were read.** -/
theorem rewrites_type (source : Source) (room : Nat) :
    source.Rewrites (source.type room) TypeExpr.names (putType · room) := by
  induction room with
  | zero => rintro cursor next expr ⟨⟩
  | succ room ih =>
    unfold Source.type
    refine .byte fun tag => ?_
    split
    · exact .map source.rewrites_ref 0 (fun _ => rfl) fun _ _ => rfl
    · intro start cursor next expr hspent hread
      obtain ⟨raw, middle, hraw, hread⟩ := bind_run_eq_ok.1 hread
      obtain ⟨owner, middle', howner, hread⟩ := bind_run_eq_ok.1 hread
      obtain ⟨args, last, hargs, hread⟩ := bind_run_eq_ok.1 hread
      obtain ⟨rfl, rfl⟩ := pure_run_eq_ok.1 hread
      refine ((((source.rewrites_ref hraw).both (ih.option _ howner)).both
        (ih.list _ hargs)).behind hspent 1).of_eq ?_ fun pool => ?_
      · simp [TypeExpr.names, namesOfOwner_eq, namesOfAll_eq]
      · simp only [putType, putOwner_eq, putTypes_nil, putBoth, putList, map_eq_pure_bind,
          bind_assoc, pure_bind, List.append_assoc]
    · intro start cursor next expr hspent hread
      obtain ⟨name, middle, hname, hread⟩ := bind_run_eq_ok.1 hread
      obtain ⟨bounds, last, hbounds, hread⟩ := bind_run_eq_ok.1 hread
      obtain ⟨rfl, rfl⟩ := pure_run_eq_ok.1 hread
      refine (((source.rewrites_ref hname).both (ih.list _ hbounds)).behind hspent 2).of_eq ?_
        fun pool => ?_
      · simp [TypeExpr.names, namesOfAll_eq]
      · simp only [putType, putTypes_nil, putBoth, putList, map_eq_pure_bind,
          bind_assoc, pure_bind, List.append_assoc]
    · intro start cursor next expr hspent hread
      obtain ⟨upper, middle, hupper, hread⟩ := bind_run_eq_ok.1 hread
      obtain ⟨lower, last, hlower, hread⟩ := bind_run_eq_ok.1 hread
      obtain ⟨rfl, rfl⟩ := pure_run_eq_ok.1 hread
      refine (((ih.list _ hupper).both (ih.list _ hlower)).behind hspent 3).of_eq ?_
        fun pool => ?_
      · simp [TypeExpr.names, namesOfAll_eq]
      · simp only [putType, putTypes_nil, putBoth, putList, map_eq_pure_bind,
          bind_assoc, pure_bind, List.append_assoc]
    · exact .map ih 4 (fun _ => rfl) fun _ _ => rfl
    · exact .refuse

/-! ## Annotations -/

theorem rewrites_property (source : Source) :
    source.Rewrites source.property (fun entry => entry.1 :: entry.2.texts) putProperty := by
  intro cursor next entry hread
  obtain ⟨name, middle, hname, hread⟩ := bind_run_eq_ok.1 hread
  obtain ⟨value, last, hvalue, hread⟩ := bind_run_eq_ok.1 hread
  obtain ⟨rfl, rfl⟩ := pure_run_eq_ok.1 hread
  exact (source.rewrites_ref hname).both (source.rewrites_value _ hvalue)

/-- **Annotations can be written as they were read**: of properties with one name only the
    last is written. -/
theorem rewrites_note (source : Source) :
    source.Rewrites source.note Annotation.texts putNote := by
  intro cursor next note hread
  obtain ⟨typeName, middle, htype, hread⟩ := bind_run_eq_ok.1 hread
  obtain ⟨simpleName, middle₂, hsimple, hread⟩ := bind_run_eq_ok.1 hread
  obtain ⟨qualifiedName, middle₃, hqualified, hread⟩ := bind_run_eq_ok.1 hread
  obtain ⟨properties, last, hproperties, hread⟩ := bind_run_eq_ok.1 hread
  obtain ⟨rfl, rfl⟩ := pure_run_eq_ok.1 hread
  have hentries := source.rewrites_property.kept hproperties
    (.of_map _ (Table.ofList properties).nodup) fun _ => Table.mem_of_mem_entries_ofList
  refine ((source.rewrites_ref htype).both ((source.rewrites_ref hsimple).both
    ((source.rewrites_ref.option _ hqualified).both hentries))).of_eq ?_ fun pool => ?_
  · unfold Annotation.texts
    simp
  · simp only [putNote, putBoth, bind_assoc, pure_bind, List.append_assoc]

theorem rewrites_annotations (source : Source) :
    source.Rewrites source.annotations (List.flatMap Annotation.texts) putAnnotations :=
  source.rewrites_note.list .annotations

theorem rewrites_parameterAnnotations (source : Source) :
    source.Rewrites source.parameterAnnotations (List.flatMap (List.flatMap Annotation.texts))
      fun pool => putList (putAnnotations pool) :=
  source.rewrites_annotations.list .parameterAnnotations

/-! ## Members -/

theorem rewrites_memberModifiers (source : Source) :
    source.Rewrites memberModifiers (fun _ => [])
      fun _ modifiers => .ok [memberFlags modifiers] := by
  refine .byte fun flags => ?_
  intro start cursor next modifiers hspent hread
  obtain ⟨rfl, rfl⟩ := pure_run_eq_ok.1 (check_run_eq_ok.1 hread).2
  exact ⟨1, hspent, .bytes (Nat.le_refl 1)⟩

/-- Lists of references, all of which are texts. -/
theorem rewrites_refs (source : Source) (part : Part) :
    source.Rewrites (source.list part source.ref) id fun pool => putList (putRef pool) := by
  intro cursor next items hread
  exact (source.rewrites_ref.list part hread).of_eq (by simp) fun _ => rfl

/-- **Constructors can be written as they were read.** -/
theorem rewrites_constructor (source : Source) :
    source.Rewrites source.constructor Constructor.texts putConstructor := by
  intro cursor next ctor hread
  obtain ⟨declaring, middle, hdeclaring, hread⟩ := bind_run_eq_ok.1 hread
  obtain ⟨modifiers, middle₂, hmodifiers, hread⟩ := bind_run_eq_ok.1 hread
  obtain ⟨parameters, middle₃, hparameters, hread⟩ := bind_run_eq_ok.1 hread
  obtain ⟨notes, middle₄, hnotes, hread⟩ := bind_run_eq_ok.1 hread
  obtain ⟨parameterNotes, last, hparameterNotes, hread⟩ := bind_run_eq_ok.1 hread
  obtain ⟨rfl, rfl⟩ := pure_run_eq_ok.1 hread
  refine ((source.rewrites_ref hdeclaring).both ((source.rewrites_memberModifiers hmodifiers).both
    ((source.rewrites_refs _ hparameters).both ((source.rewrites_annotations hnotes).both
      (source.rewrites_parameterAnnotations hparameterNotes))))).of_eq ?_ fun pool => ?_
  · simp [Constructor.texts]
  · simp only [putConstructor, putBoth, ok_bind, bind_assoc, pure_bind, List.append_assoc,
      List.cons_append, List.nil_append]

/-- **Methods can be written as they were read.** -/
theorem rewrites_method (source : Source) :
    source.Rewrites source.method Method.texts putMethod := by
  intro cursor next method hread
  obtain ⟨name, middle, hname, hread⟩ := bind_run_eq_ok.1 hread
  obtain ⟨declaring, middle₂, hdeclaring, hread⟩ := bind_run_eq_ok.1 hread
  obtain ⟨returns, middle₃, hreturns, hread⟩ := bind_run_eq_ok.1 hread
  obtain ⟨modifiers, middle₄, hmodifiers, hread⟩ := bind_run_eq_ok.1 hread
  obtain ⟨parameters, middle₅, hparameters, hread⟩ := bind_run_eq_ok.1 hread
  obtain ⟨notes, middle₆, hnotes, hread⟩ := bind_run_eq_ok.1 hread
  obtain ⟨parameterNotes, middle₇, hparameterNotes, hread⟩ := bind_run_eq_ok.1 hread
  obtain ⟨generic, last, hgeneric, hread⟩ := bind_run_eq_ok.1 hread
  obtain ⟨rfl, rfl⟩ := pure_run_eq_ok.1 hread
  refine ((source.rewrites_ref hname).both ((source.rewrites_ref hdeclaring).both
    ((source.rewrites_ref hreturns).both ((source.rewrites_memberModifiers hmodifiers).both
      ((source.rewrites_refs _ hparameters).both ((source.rewrites_annotations hnotes).both
        ((source.rewrites_parameterAnnotations hparameterNotes).both
          (source.rewrites_type _ hgeneric)))))))).of_eq ?_ fun pool => ?_
  · simp [Method.texts]
  · simp only [putMethod, putBoth, ok_bind, bind_assoc, pure_bind, List.append_assoc,
      List.cons_append, List.nil_append]

/-- **Fields can be written as they were read.** -/
theorem rewrites_field (source : Source) :
    source.Rewrites source.field Field.texts putField := by
  intro cursor next field hread
  obtain ⟨name, middle, hname, hread⟩ := bind_run_eq_ok.1 hread
  obtain ⟨declaring, middle₂, hdeclaring, hread⟩ := bind_run_eq_ok.1 hread
  obtain ⟨typeName, middle₃, htype, hread⟩ := bind_run_eq_ok.1 hread
  obtain ⟨modifiers, middle₄, hmodifiers, hread⟩ := bind_run_eq_ok.1 hread
  obtain ⟨notes, last, hnotes, hread⟩ := bind_run_eq_ok.1 hread
  obtain ⟨rfl, rfl⟩ := pure_run_eq_ok.1 hread
  refine ((source.rewrites_ref hname).both ((source.rewrites_ref hdeclaring).both
    ((source.rewrites_ref htype).both ((source.rewrites_memberModifiers hmodifiers).both
      (source.rewrites_annotations hnotes))))).of_eq ?_ fun pool => ?_
  · simp [Field.texts]
  · simp only [putField, putBoth, ok_bind, bind_assoc, pure_bind, List.append_assoc,
      List.cons_append, List.nil_append]

/-! ## The shape -/

theorem rewritten_superclass {present : Bool} {superclass : Option String}
    (h : source.superclass present cursor = .ok superclass next) :
    source.Rewritten cursor next superclass.toList (putSuperclass · superclass) := by
  unfold Source.superclass at h
  cases present with
  | false =>
    obtain ⟨rfl, rfl⟩ := pure_run_eq_ok.1 h
    exact ⟨0, by simp, .bytes (Nat.le_refl 0)⟩
  | true =>
    obtain ⟨name, hname, rfl⟩ := map_run_eq_ok.1 h
    exact source.rewrites_ref hname

/-- Proxy methods, whatever width their count was read with. -/
theorem behind_proxyMethods (width : Width) :
    source.Behind 1 (some <$> source.counted .proxyMethods width source.method)
      (fun methods => (methods.getD []).flatMap Method.texts) putProxyMethods := by
  intro start cursor next methods hspent hmap
  obtain ⟨methods, hread, rfl⟩ := map_run_eq_ok.1 hmap
  obtain ⟨hcounted, hlimit⟩ := source.rewrites_method.counted hread
  refine (hcounted.behind hspent (UInt8.ofNat ((Width.fit methods.length).selector + 1))).of_eq
    (fun _ => Iff.rfl) fun pool => ?_
  simp only [putProxyMethods, widthOf_of_lt hlimit, putBoth, putCount, map_eq_pure_bind, ok_bind,
    bind_assoc, pure_bind]

theorem rewrites_proxyMethods (source : Source) :
    source.Rewrites source.proxyMethods (fun methods => (methods.getD []).flatMap Method.texts)
      putProxyMethods := by
  refine .byte fun presence => ?_
  split
  · exact .pure [0] (Nat.le_refl 1) rfl fun _ => rfl
  · exact behind_proxyMethods .one
  · exact behind_proxyMethods .two
  · exact behind_proxyMethods .three
  · exact behind_proxyMethods .four
  · exact .refuse

theorem check_shape_eq_ok {shape found : Shape} (h : (match shape.check with
      | .ok _ => return shape
      | .error fault => Blob.refuse (.faulty fault) : Read Shape) cursor = .ok found next) :
    found.check = .ok () ∧ shape = found ∧ cursor = next := by
  cases hcheck : shape.check with
  | error fault =>
    simp only [hcheck] at h
    cases h
  | ok _ =>
    simp only [hcheck] at h
    obtain ⟨rfl, rfl⟩ := pure_run_eq_ok.1 h
    exact ⟨hcheck, rfl, rfl⟩

/-- **A shape can be written as it was read**, and it keeps the rules. -/
theorem rewrites_shape {shape : Shape} (hread : source.shape cursor = .ok shape next) :
    source.Rewritten cursor next shape.texts (putShape · shape) ∧ shape.check = .ok () := by
  obtain ⟨simpleName, middle, hsimple, hread⟩ := bind_run_eq_ok.1 hread
  obtain ⟨name, middle₂, hname, hread⟩ := bind_run_eq_ok.1 hread
  obtain ⟨flags, middle₃, hflags, hread⟩ := bind_run_eq_ok.1 hread
  obtain ⟨-, hread⟩ := check_run_eq_ok.1 hread
  obtain ⟨layout, middle₄, hlayout, hread⟩ := bind_run_eq_ok.1 hread
  obtain ⟨superclass, middle₅, hsuperclass, hread⟩ := bind_run_eq_ok.1 hread
  obtain ⟨interfaces, middle₆, hinterfaces, hread⟩ := bind_run_eq_ok.1 hread
  obtain ⟨notes, middle₇, hnotes, hread⟩ := bind_run_eq_ok.1 hread
  obtain ⟨constructors, middle₈, hconstructors, hread⟩ := bind_run_eq_ok.1 hread
  obtain ⟨methods, middle₉, hmethods, hread⟩ := bind_run_eq_ok.1 hread
  obtain ⟨fields, middle₁₀, hfields, hread⟩ := bind_run_eq_ok.1 hread
  obtain ⟨proxyMethods, last, hproxy, hread⟩ := bind_run_eq_ok.1 hread
  obtain ⟨hcheck, hshape, rfl⟩ := check_shape_eq_ok hread
  refine ⟨?_, hcheck⟩
  obtain ⟨hinterfaces, hinterfacesLimit⟩ := source.rewrites_ref.counted hinterfaces
  obtain ⟨hconstructors, hconstructorsLimit⟩ := source.rewrites_constructor.counted hconstructors
  obtain ⟨hmethods, hmethodsLimit⟩ := source.rewrites_method.counted hmethods
  obtain ⟨hfields, hfieldsLimit⟩ := source.rewrites_field.counted hfields
  have hlayout : source.Rewritten middle₃ middle₄ [] _ :=
    .byte hlayout (layoutByte (.fit interfaces.length) (.fit constructors.length)
      (.fit methods.length) (.fit fields.length))
  have hcounted := hinterfaces.both ((source.rewrites_annotations hnotes).both
    (hconstructors.both (hmethods.both (hfields.both (source.rewrites_proxyMethods hproxy)))))
  refine ((source.rewrites_ref hsimple).both ((source.rewrites_ref hname).both
    ((Rewritten.byte hflags (typeFlags shape)).both (hlayout.both
      ((rewritten_superclass hsuperclass).both hcounted))))).of_eq ?_ fun pool => ?_
  · subst hshape
    intro s
    -- the proxy methods stand last, their texts are collected behind those of the methods
    simp only [Shape.texts, List.flatMap_append, List.flatMap_singleton', List.mem_append,
      List.mem_cons, List.not_mem_nil, or_false, false_or, or_assoc]
    rw [or_comm (a := s ∈ (proxyMethods.getD []).flatMap Method.texts)]
  · subst hshape
    simp only [putShape, widthOf_of_lt hinterfacesLimit, widthOf_of_lt hconstructorsLimit,
      widthOf_of_lt hmethodsLimit, widthOf_of_lt hfieldsLimit, putBoth, putCount, ok_bind,
      bind_assoc, pure_bind, List.append_assoc, List.cons_append, List.nil_append]

end Source

end TypeAtlas.Blob
