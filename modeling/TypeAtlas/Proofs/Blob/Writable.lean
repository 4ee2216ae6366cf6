/-
  Which shapes can be written.

  Three things can keep a part of a shape from being written: a text that is missing
  from the pool, a list that is too long for a count, and nesting beyond the limit.
  `Settles` says of a writer that there is nothing else; it holds of parts in a row if
  it holds of each (`Settles.both`, `Settles.all`).

  * `settles_value`, `settles_type`: values and generic types, by induction on the levels
    that may still be entered, against their depth;
  * `settles_shape`: the texts that are looked up are those that were collected;
  * `Shape.exists_toBytes`, `Shape.toBytes_eq_tooDeep`: a shape of a size that can be
    counted is written, or is nested too deep;
  * `Shape.toBytes_settled`: so a shape is written if and only if it keeps the rules and
    is shallow, and no text is ever missing.
-/
import Mathlib.Data.List.Dedup
import TypeAtlas.Proofs.Blob.Canonical

namespace TypeAtlas

open TypeAtlas.Blob

/-! ## Lengths of lists -/

namespace AnnotationValue

mutual

/-- The lengths of all lists in a value. -/
def counts : AnnotationValue → List Nat
  | list items => items.length :: countsOfAll items
  | _ => []

/-- The lengths of all lists in a list of values. -/
def countsOfAll : List AnnotationValue → List Nat
  | [] => []
  | value :: rest => value.counts ++ countsOfAll rest

end

theorem countsOfAll_eq (items : List AnnotationValue) : countsOfAll items = items.flatMap counts := by
  induction items with
  | nil => rfl
  | cons value rest ih => rw [countsOfAll, ih, List.flatMap_cons]

theorem one_le_depth (value : AnnotationValue) : 1 ≤ value.depth := by
  cases value <;> simp [depth]

theorem depthOfAll_le_iff {items : List AnnotationValue} {n : Nat} :
    depthOfAll items ≤ n ↔ ∀ value ∈ items, value.depth ≤ n := by
  induction items with
  | nil => simp [depthOfAll]
  | cons value rest ih => rw [depthOfAll, Nat.max_le, ih, List.forall_mem_cons]

end AnnotationValue

namespace TypeExpr

mutual

/-- The lengths of all lists in a type. -/
def counts : TypeExpr → List Nat
  | named _ => []
  | applied _ owner args => args.length :: (countsOfOwner owner ++ countsOfAll args)
  | typeVar _ bounds => bounds.length :: countsOfAll bounds
  | wildcard upper lower =>
    upper.length :: lower.length :: (countsOfAll upper ++ countsOfAll lower)
  | array component => component.counts

/-- The lengths of all lists in an owner. -/
def countsOfOwner : Option TypeExpr → List Nat
  | none => []
  | some owner => owner.counts

/-- The lengths of all lists in a list of types. -/
def countsOfAll : List TypeExpr → List Nat
  | [] => []
  | expr :: rest => expr.counts ++ countsOfAll rest

end

theorem countsOfAll_eq (items : List TypeExpr) : countsOfAll items = items.flatMap counts := by
  induction items with
  | nil => rfl
  | cons expr rest ih => rw [countsOfAll, ih, List.flatMap_cons]

theorem countsOfOwner_eq (owner : Option TypeExpr) :
    countsOfOwner owner = owner.toList.flatMap counts := by
  cases owner <;> simp [countsOfOwner]

theorem depthOfAll_le_iff {items : List TypeExpr} {n : Nat} :
    depthOfAll items ≤ n ↔ ∀ expr ∈ items, expr.depth ≤ n := by
  induction items with
  | nil => simp [depthOfAll]
  | cons expr rest ih => rw [depthOfAll, Nat.max_le, ih, List.forall_mem_cons]

theorem depthOfOwner_le_iff {owner : Option TypeExpr} {n : Nat} :
    depthOfOwner owner ≤ n ↔ ∀ expr ∈ owner.toList, expr.depth ≤ n := by
  cases owner <;> simp [depthOfOwner]

end TypeExpr

namespace Annotation

/-- The lengths of all lists in an annotation. -/
def counts (note : Annotation) : List Nat :=
  note.properties.entries.length ::
    note.properties.entries.flatMap fun entry => entry.2.counts

/-- Whether no value of the annotation is nested too deep. -/
def Shallow (note : Annotation) : Prop :=
  ∀ entry ∈ note.properties.entries, entry.2.depth ≤ nestingLimit

instance (note : Annotation) : Decidable note.Shallow :=
  inferInstanceAs (Decidable (∀ entry ∈ note.properties.entries, _ ≤ _))

end Annotation

/-- The lengths of all lists in a list of annotations, its own first. -/
def countsOfNotes (notes : List Annotation) : List Nat :=
  notes.length :: notes.flatMap Annotation.counts

/-! ### Members and shapes -/

namespace Constructor

/-- The annotations of a constructor and of its parameters. -/
def notes (ctor : Constructor) : List Annotation :=
  ctor.annotations ++ ctor.parameterAnnotations.flatten

def counts (ctor : Constructor) : List Nat :=
  ctor.parameters.length :: (countsOfNotes ctor.annotations ++
    ctor.parameterAnnotations.length :: ctor.parameterAnnotations.flatMap countsOfNotes)

end Constructor

namespace Method

/-- The annotations of a method and of its parameters. -/
def notes (method : Method) : List Annotation :=
  method.annotations ++ method.parameterAnnotations.flatten

def counts (method : Method) : List Nat :=
  method.parameters.length :: (countsOfNotes method.annotations ++
    method.parameterAnnotations.length ::
      (method.parameterAnnotations.flatMap countsOfNotes ++ method.genericReturns.counts))

end Method

namespace Shape

/-- The methods of a shape and those that a stand-in answers. -/
def allMethods (shape : Shape) : List Method := shape.methods ++ shape.proxyMethods.getD []

/-- The annotations of a type, of its members and of their parameters. -/
def notes (shape : Shape) : List Annotation :=
  shape.annotations ++ shape.constructors.flatMap Constructor.notes ++
    shape.allMethods.flatMap Method.notes ++ shape.fields.flatMap Field.annotations

/-- The lengths of all lists in a shape. -/
def counts (shape : Shape) : List Nat :=
  [shape.interfaces.length, shape.constructors.length, shape.methods.length,
    shape.fields.length] ++ countsOfNotes shape.annotations ++
    shape.constructors.flatMap Constructor.counts ++ shape.methods.flatMap Method.counts ++
    (shape.fields.flatMap fun field => countsOfNotes field.annotations) ++
    shape.proxyMethods.toList.map List.length ++
    (shape.proxyMethods.getD []).flatMap Method.counts

/-- Whether no generic result and no value of an annotation is nested too deep. -/
structure Shallow (shape : Shape) : Prop where
  generic : ∀ method ∈ shape.allMethods, method.genericReturns.depth ≤ nestingLimit
  notes : ∀ note ∈ shape.notes, note.Shallow

instance (shape : Shape) : Decidable shape.Shallow :=
  decidable_of_iff ((∀ method ∈ shape.allMethods, method.genericReturns.depth ≤ nestingLimit) ∧
      ∀ note ∈ shape.notes, note.Shallow)
    ⟨fun ⟨hgeneric, hnotes⟩ => ⟨hgeneric, hnotes⟩, fun h => ⟨h.generic, h.notes⟩⟩

/-- The same part by part. -/
theorem shallow_iff {shape : Shape} :
    shape.Shallow ↔ (∀ note ∈ shape.annotations, note.Shallow) ∧
      (∀ ctor ∈ shape.constructors, ∀ note ∈ ctor.notes, note.Shallow) ∧
      (∀ method ∈ shape.allMethods,
        (∀ note ∈ method.notes, note.Shallow) ∧ method.genericReturns.depth ≤ nestingLimit) ∧
      ∀ field ∈ shape.fields, ∀ note ∈ field.annotations, note.Shallow := by
  have hnotes : (∀ note ∈ shape.notes, note.Shallow) ↔ (∀ note ∈ shape.annotations, note.Shallow) ∧
      (∀ ctor ∈ shape.constructors, ∀ note ∈ ctor.notes, note.Shallow) ∧
      (∀ method ∈ shape.allMethods, ∀ note ∈ method.notes, note.Shallow) ∧
      ∀ field ∈ shape.fields, ∀ note ∈ field.annotations, note.Shallow := by
    simp only [notes, List.forall_mem_append, List.forall_mem_flatMap, and_assoc]
  constructor
  · rintro ⟨hgeneric, hall⟩
    obtain ⟨htype, hconstructors, hmethods, hfields⟩ := hnotes.1 hall
    exact ⟨htype, hconstructors, fun method h => ⟨hmethods method h, hgeneric method h⟩, hfields⟩
  · rintro ⟨htype, hconstructors, hmethods, hfields⟩
    exact ⟨fun method h => (hmethods method h).2,
      hnotes.2 ⟨htype, hconstructors, fun method h => (hmethods method h).1, hfields⟩⟩

end Shape

namespace Blob

open TypeAtlas.Wire

variable {α : Type}

/-! ## Parts that can be written -/

/-- What comes of a part with the given texts and lengths of lists: if the pool holds the
    texts and the lengths can be counted, it is written unless it is nested too deep. -/
structure Settles (pool : Pool) (texts : List String) (counts : List Nat) (shallow : Prop)
    (written : Written) : Prop where
  ok : (∀ s ∈ texts, s ∈ pool.texts) → (∀ n ∈ counts, n < countLimit) → shallow →
    ∃ bytes, written = .ok bytes
  deep : (∀ s ∈ texts, s ∈ pool.texts) → (∀ n ∈ counts, n < countLimit) → ¬ shallow →
    written = .error .tooDeep
  /-- However long the lists are. -/
  pooled : (∀ s ∈ texts, s ∈ pool.texts) → ∀ text,
    written ≠ .error (.unwritable (.notPooled text))

theorem putBoth_ne {first second : Written} {e : BlobError} (h : first ≠ .error e)
    (h' : second ≠ .error e) : putBoth first second ≠ .error e := by
  cases first with
  | error _ => exact h
  | ok xs =>
    cases second with
    | error _ => exact h'
    | ok ys => exact fun herror => by cases herror

namespace Settles

variable {pool : Pool} {texts texts' : List String} {counts counts' : List Nat}
  {shallow shallow' : Prop} {written written' : Written}

theorem bytes (bytes : List UInt8) : Settles pool [] [] True (.ok bytes) :=
  ⟨fun _ _ _ => ⟨bytes, rfl⟩, fun _ _ h => absurd trivial h, fun _ _ h => by cases h⟩

/-- A part whose levels are used up. -/
theorem tooDeep (h : ¬ shallow) : Settles pool texts counts shallow (.error .tooDeep) :=
  ⟨fun _ _ hshallow => absurd hshallow h, fun _ _ _ => rfl, fun _ _ h => by cases h⟩

theorem both (h : Settles pool texts counts shallow written)
    (h' : Settles pool texts' counts' shallow' written') :
    Settles pool (texts ++ texts') (counts ++ counts') (shallow ∧ shallow')
      (putBoth written written') := by
  constructor
  · rintro htexts hcounts ⟨hshallow, hshallow'⟩
    rw [List.forall_mem_append] at htexts hcounts
    obtain ⟨xs, rfl⟩ := h.ok htexts.1 hcounts.1 hshallow
    obtain ⟨ys, rfl⟩ := h'.ok htexts.2 hcounts.2 hshallow'
    exact ⟨xs ++ ys, putBoth_ok xs ys⟩
  · intro htexts hcounts hdeep
    rw [List.forall_mem_append] at htexts hcounts
    by_cases hshallow : shallow
    · obtain ⟨xs, rfl⟩ := h.ok htexts.1 hcounts.1 hshallow
      rw [h'.deep htexts.2 hcounts.2 fun hshallow' => hdeep ⟨hshallow, hshallow'⟩]
      rfl
    · rw [h.deep htexts.1 hcounts.1 hshallow]
      rfl
  · intro htexts text
    rw [List.forall_mem_append] at htexts
    exact putBoth_ne (h.pooled htexts.1 text) (h'.pooled htexts.2 text)

/-- The same part by another name: what counts of its texts and lengths is which there are. -/
theorem of_eq (h : Settles pool texts counts shallow written)
    (htexts : ∀ s, s ∈ texts' ↔ s ∈ texts) (hcounts : ∀ n, n ∈ counts' ↔ n ∈ counts)
    (hshallow : shallow' ↔ shallow) (hwritten : written' = written) :
    Settles pool texts' counts' shallow' written' := by
  subst hwritten
  have hpooled : (∀ s ∈ texts', s ∈ pool.texts) → ∀ s ∈ texts, s ∈ pool.texts :=
    fun h s hs => h s ((htexts s).2 hs)
  have hcounted : (∀ n ∈ counts', n < countLimit) → ∀ n ∈ counts, n < countLimit :=
    fun h n hn => h n ((hcounts n).2 hn)
  rw [hshallow]
  exact ⟨fun ht hc => h.ok (hpooled ht) (hcounted hc), fun ht hc => h.deep (hpooled ht) (hcounted hc),
    fun ht => h.pooled (hpooled ht)⟩

/-- A part behind its tag. -/
theorem behind (h : Settles pool texts counts shallow written) (tag : UInt8) :
    Settles pool texts counts shallow ((tag :: ·) <$> written) := by
  rw [map_cons_eq]
  exact ((Settles.bytes [tag]).both h).of_eq (by simp) (by simp) (by simp) rfl

theorem ref (s : String) : Settles pool [s] [] True (putRef pool s) := by
  have hok : (∀ t ∈ [s], t ∈ pool.texts) → ∃ bytes, putRef pool s = .ok bytes := by
    intro hpooled
    obtain ⟨i, hi⟩ := Pool.index?_of_mem (hpooled s (List.mem_singleton_self s))
    exact ⟨_, putRef_eq_ok.2 ⟨i, hi, rfl⟩⟩
  refine ⟨fun hpooled _ _ => hok hpooled, fun _ _ h => absurd trivial h, fun hpooled text h => ?_⟩
  obtain ⟨bytes, hbytes⟩ := hok hpooled
  rw [hbytes] at h
  cases h

/-! ### Lists -/

/-- A part that starts with the width of a count. -/
theorem width {put : Width → Written} (n : Nat)
    (h : ∀ width, Settles pool texts counts shallow (put width)) :
    Settles pool texts (n :: counts) shallow (widthOf n >>= put) := by
  refine ⟨fun htexts hcounts => ?_, fun htexts hcounts => ?_, fun htexts text => ?_⟩
  · obtain ⟨hn, hcounts⟩ := List.forall_mem_cons.1 hcounts
    rw [Source.widthOf_of_lt hn]
    exact (h _).ok htexts hcounts
  · obtain ⟨hn, hcounts⟩ := List.forall_mem_cons.1 hcounts
    rw [Source.widthOf_of_lt hn]
    exact (h _).deep htexts hcounts
  · by_cases hn : n < countLimit
    · rw [Source.widthOf_of_lt hn]
      exact (h _).pooled htexts text
    · rw [widthOf, if_neg hn]
      exact fun herror => by cases herror

variable {put : α → Written} {textsOf : α → List String} {countsOf : α → List Nat}
  {shallowOf : α → Prop}

theorem all (h : ∀ item, Settles pool (textsOf item) (countsOf item) (shallowOf item) (put item))
    (items : List α) :
    Settles pool (items.flatMap textsOf) (items.flatMap countsOf)
      (∀ item ∈ items, shallowOf item) (putAll put items) := by
  induction items with
  | nil => exact (Settles.bytes []).of_eq (by simp) (by simp) (by simp) rfl
  | cons item rest ih =>
    exact ((h item).both ih).of_eq (by simp) (by simp) (by simp) putAll_cons

theorem list (h : ∀ item, Settles pool (textsOf item) (countsOf item) (shallowOf item) (put item))
    (items : List α) :
    Settles pool (items.flatMap textsOf) (items.length :: items.flatMap countsOf)
      (∀ item ∈ items, shallowOf item) (putList put items) := by
  refine (Settles.width items.length fun width =>
    (Settles.bytes (selectorByte width :: putNumber width items.length)).both
      (all h items)).of_eq (by simp) (by simp) (by simp) ?_
  simp only [putList, putSize, putBoth, ok_bind, pure_bind, bind_assoc]

/-- Lists of references, all of which are texts. -/
theorem refs (items : List String) :
    Settles pool items [items.length] True (putList (putRef pool) items) := by
  exact (Settles.list Settles.ref items).of_eq (by simp) (by simp) (by simp) rfl

theorem option
    (h : ∀ item, Settles pool (textsOf item) (countsOf item) (shallowOf item) (put item))
    (part : Option α) :
    Settles pool (part.toList.flatMap textsOf) (part.toList.flatMap countsOf)
      (∀ item ∈ part.toList, shallowOf item) (putOption put part) := by
  cases part with
  | none => exact (Settles.bytes [0]).of_eq (by simp) (by simp) (by simp) rfl
  | some item =>
    exact ((h item).behind 1).of_eq (by simp) (by simp) (by simp) rfl

end Settles

/-! ## Values -/

variable {pool : Pool}

theorem putValues_nil (room : Nat) (items : List AnnotationValue) :
    putValues pool room [] items = putAll (putValue pool room) items := by
  rw [putValues_eq]
  cases putAll (putValue pool room) items <;> rfl

/-- **A value is written unless it is nested deeper than there is room.** -/
theorem settles_value (room : Nat) (value : AnnotationValue) :
    Settles pool value.texts value.counts (value.depth ≤ room) (putValue pool room value) := by
  induction room generalizing value with
  | zero =>
    have hdeep : ¬ value.depth ≤ 0 := Nat.not_le.2 value.one_le_depth
    rw [putValue]
    exact .tooDeep hdeep
  | succ room ih =>
    -- a value that is no list is one deep
    have hflat : 1 ≤ room + 1 ↔ True := iff_true_intro (Nat.le_add_left 1 room)
    cases value with
    | list items =>
      have hdepth : (AnnotationValue.list items).depth ≤ room + 1 ↔
          ∀ value ∈ items, value.depth ≤ room := by
        rw [AnnotationValue.depth, Nat.add_comm, Nat.add_le_add_iff_right,
          AnnotationValue.depthOfAll_le_iff]
      refine (Settles.width items.length fun width =>
        (Settles.bytes (UInt8.ofNat (7 + width.selector) :: putNumber width items.length)).both
          (Settles.all ih items)).of_eq ?_ ?_ ?_ ?_
      · simp [AnnotationValue.texts, Source.textsOfAll_eq]
      · simp [AnnotationValue.counts, AnnotationValue.countsOfAll_eq]
      · simpa using hdepth
      · simp only [putValue, putValues_nil, putBoth, ok_bind, List.cons_append]
    | text s => exact ((Settles.ref s).behind 1).of_eq (fun _ => Iff.rfl) (fun _ => Iff.rfl) hflat rfl
    | other s => exact ((Settles.ref s).behind 11).of_eq (fun _ => Iff.rfl) (fun _ => Iff.rfl) hflat rfl
    | null => exact (Settles.bytes _).of_eq (fun _ => Iff.rfl) (fun _ => Iff.rfl) hflat rfl
    | flag b => exact (Settles.bytes _).of_eq (fun _ => Iff.rfl) (fun _ => Iff.rfl) hflat rfl
    | int n => exact (Settles.bytes _).of_eq (fun _ => Iff.rfl) (fun _ => Iff.rfl) hflat rfl
    | long n => exact (Settles.bytes _).of_eq (fun _ => Iff.rfl) (fun _ => Iff.rfl) hflat rfl
    | float x => exact (Settles.bytes _).of_eq (fun _ => Iff.rfl) (fun _ => Iff.rfl) hflat rfl
    | double x => exact (Settles.bytes _).of_eq (fun _ => Iff.rfl) (fun _ => Iff.rfl) hflat rfl

/-! ## Generic types -/

/-- **A generic type is written unless it is nested deeper than there is room.** -/
theorem settles_type (room : Nat) (expr : TypeExpr) :
    Settles pool expr.names expr.counts (expr.depth ≤ room) (putType pool room expr) := by
  induction room generalizing expr with
  | zero =>
    have hdeep : ¬ expr.depth ≤ 0 := Nat.not_le.2 expr.one_le_depth
    rw [putType]
    exact .tooDeep hdeep
  | succ room ih =>
    cases expr with
    | named name =>
      exact ((Settles.ref name).behind 0).of_eq (fun _ => Iff.rfl) (fun _ => Iff.rfl)
        (iff_true_intro (Nat.le_add_left 1 room)) rfl
    | applied raw owner args =>
      refine (((Settles.ref raw).both ((Settles.option ih owner).both
        (Settles.list ih args))).behind 1).of_eq ?_ ?_ ?_ ?_
      · simp [TypeExpr.names, Source.namesOfOwner_eq, Source.namesOfAll_eq]
      · intro n
        simp only [TypeExpr.counts, TypeExpr.countsOfOwner_eq, TypeExpr.countsOfAll_eq,
          List.nil_append, List.mem_append, List.mem_cons]
        exact or_left_comm
      · rw [TypeExpr.depth, Nat.add_comm, Nat.add_le_add_iff_right, Nat.max_le,
          TypeExpr.depthOfOwner_le_iff, TypeExpr.depthOfAll_le_iff, true_and]
      · simp only [putType, putOwner_eq, Source.putTypes_nil, putBoth, putList, map_eq_pure_bind,
          bind_assoc, pure_bind, List.append_assoc]
    | typeVar name bounds =>
      refine (((Settles.ref name).both (Settles.list ih bounds)).behind 2).of_eq ?_ ?_ ?_ ?_
      · simp [TypeExpr.names, Source.namesOfAll_eq]
      · simp [TypeExpr.counts, TypeExpr.countsOfAll_eq]
      · rw [TypeExpr.depth, Nat.add_comm, Nat.add_le_add_iff_right,
          TypeExpr.depthOfAll_le_iff, true_and]
      · simp only [putType, Source.putTypes_nil, putBoth, putList, map_eq_pure_bind,
          bind_assoc, pure_bind, List.append_assoc]
    | wildcard upper lower =>
      refine (((Settles.list ih upper).both (Settles.list ih lower)).behind 3).of_eq ?_ ?_ ?_ ?_
      · simp [TypeExpr.names, Source.namesOfAll_eq]
      · intro n
        simp only [TypeExpr.counts, TypeExpr.countsOfAll_eq, List.mem_append, List.mem_cons]
        rw [or_assoc]
        exact or_congr_right or_left_comm
      · rw [TypeExpr.depth, Nat.add_comm, Nat.add_le_add_iff_right, Nat.max_le,
          TypeExpr.depthOfAll_le_iff, TypeExpr.depthOfAll_le_iff]
      · simp only [putType, Source.putTypes_nil, putBoth, putList, map_eq_pure_bind,
          bind_assoc, pure_bind, List.append_assoc]
    | array component =>
      refine ((ih component).behind 4).of_eq (fun _ => Iff.rfl) (fun _ => Iff.rfl) ?_ rfl
      rw [TypeExpr.depth, Nat.add_comm, Nat.add_le_add_iff_right]

/-! ## Annotations -/

theorem settles_property (entry : String × AnnotationValue) :
    Settles pool (entry.1 :: entry.2.texts) entry.2.counts (entry.2.depth ≤ nestingLimit)
      (putProperty pool entry) :=
  ((Settles.ref entry.1).both (settles_value nestingLimit entry.2)).of_eq (fun _ => Iff.rfl)
    (fun _ => Iff.rfl) (by simp) rfl

/-- **An annotation is written unless a value is nested too deep.** -/
theorem settles_note (note : Annotation) :
    Settles pool note.texts note.counts note.Shallow (putNote pool note) := by
  refine ((Settles.ref note.typeName).both ((Settles.ref note.simpleName).both
    ((Settles.option Settles.ref note.qualifiedName).both
      (Settles.list settles_property note.properties.entries)))).of_eq ?_ ?_ ?_ ?_
  · unfold Annotation.texts
    simp
  · unfold Annotation.counts
    simp
  · unfold Annotation.Shallow
    simp
  · simp only [putNote, putBoth, bind_assoc, pure_bind, List.append_assoc]

theorem settles_notes (notes : List Annotation) :
    Settles pool (notes.flatMap Annotation.texts) (countsOfNotes notes)
      (∀ note ∈ notes, note.Shallow) (putAnnotations pool notes) :=
  Settles.list settles_note notes

theorem settles_parameterNotes (notes : List (List Annotation)) :
    Settles pool (notes.flatMap (List.flatMap Annotation.texts))
      (notes.length :: notes.flatMap countsOfNotes)
      (∀ note ∈ notes.flatten, note.Shallow) (putList (putAnnotations pool) notes) :=
  (Settles.list settles_notes notes).of_eq (fun _ => Iff.rfl) (fun _ => Iff.rfl)
    List.forall_mem_flatten rfl

/-! ## Members -/

theorem settles_constructor (ctor : Constructor) :
    Settles pool ctor.texts ctor.counts (∀ note ∈ ctor.notes, note.Shallow)
      (putConstructor pool ctor) := by
  refine ((Settles.ref ctor.declaring).both ((Settles.bytes [memberFlags ctor.modifiers]).both
    ((Settles.refs ctor.parameters).both ((settles_notes ctor.annotations).both
      (settles_parameterNotes ctor.parameterAnnotations))))).of_eq ?_ ?_ ?_ ?_
  · simp [Constructor.texts]
  · simp [Constructor.counts]
  · rw [Constructor.notes, List.forall_mem_append]
    simp
  · simp only [putConstructor, putBoth, ok_bind, bind_assoc, pure_bind, List.append_assoc,
      List.cons_append, List.nil_append]

/-- **A method is written unless its generic result or a value is nested too deep.** -/
theorem settles_method (method : Method) :
    Settles pool method.texts method.counts
      ((∀ note ∈ method.notes, note.Shallow) ∧ method.genericReturns.depth ≤ nestingLimit)
      (putMethod pool method) := by
  refine ((Settles.ref method.name).both ((Settles.ref method.declaring).both
    ((Settles.ref method.returns).both ((Settles.bytes [memberFlags method.modifiers]).both
      ((Settles.refs method.parameters).both ((settles_notes method.annotations).both
        ((settles_parameterNotes method.parameterAnnotations).both
          (settles_type nestingLimit method.genericReturns)))))))).of_eq ?_ ?_ ?_ ?_
  · simp [Method.texts]
  · simp [Method.counts]
  · rw [Method.notes, List.forall_mem_append]
    simp [and_assoc]
  · simp only [putMethod, putBoth, ok_bind, bind_assoc, pure_bind, List.append_assoc,
      List.cons_append, List.nil_append]

theorem settles_field (field : Field) :
    Settles pool field.texts (countsOfNotes field.annotations)
      (∀ note ∈ field.annotations, note.Shallow) (putField pool field) := by
  refine ((Settles.ref field.name).both ((Settles.ref field.declaring).both
    ((Settles.ref field.typeName).both ((Settles.bytes [memberFlags field.modifiers]).both
      (settles_notes field.annotations))))).of_eq ?_ ?_ ?_ ?_
  · simp [Field.texts]
  · simp
  · simp
  · simp only [putField, putBoth, ok_bind, bind_assoc, pure_bind, List.append_assoc,
      List.cons_append, List.nil_append]

/-! ## The shape -/

theorem settles_superclass (superclass : Option String) :
    Settles pool superclass.toList [] True (putSuperclass pool superclass) := by
  cases superclass with
  | none => exact .bytes []
  | some name => exact .ref name

theorem settles_proxyMethods (methods : Option (List Method)) :
    Settles pool ((methods.getD []).flatMap Method.texts)
      (methods.toList.map List.length ++ (methods.getD []).flatMap Method.counts)
      (∀ method ∈ methods.getD [],
        (∀ note ∈ method.notes, note.Shallow) ∧ method.genericReturns.depth ≤ nestingLimit)
      (putProxyMethods pool methods) := by
  cases methods with
  | none => exact (Settles.bytes [0]).of_eq (by simp) (by simp) (by simp) rfl
  | some methods =>
    refine (Settles.width methods.length fun width =>
      (Settles.bytes (UInt8.ofNat (width.selector + 1) :: putNumber width methods.length)).both
        (Settles.all settles_method methods)).of_eq (by simp) (by simp) (by simp) ?_
    simp only [putProxyMethods, putBoth, ok_bind, List.cons_append]

/-- **A shape is written unless it is nested too deep.** -/
theorem settles_shape (shape : Shape) :
    Settles pool shape.texts shape.counts shape.Shallow (putShape pool shape) := by
  refine (((Settles.ref shape.simpleName).both (Settles.ref shape.name)).both
    (Settles.width shape.interfaces.length fun interfaces =>
      Settles.width shape.constructors.length fun constructors =>
      Settles.width shape.methods.length fun methods =>
      Settles.width shape.fields.length fun fields =>
      (Settles.bytes [typeFlags shape, layoutByte interfaces constructors methods fields]).both
      ((settles_superclass shape.superclass).both
      ((Settles.bytes (putNumber interfaces shape.interfaces.length)).both
      ((Settles.all Settles.ref shape.interfaces).both
      ((settles_notes shape.annotations).both
      ((Settles.bytes (putNumber constructors shape.constructors.length)).both
      ((Settles.all settles_constructor shape.constructors).both
      ((Settles.bytes (putNumber methods shape.methods.length)).both
      ((Settles.all settles_method shape.methods).both
      ((Settles.bytes (putNumber fields shape.fields.length)).both
      ((Settles.all settles_field shape.fields).both
        (settles_proxyMethods shape.proxyMethods))))))))))))).of_eq ?_ ?_ ?_ ?_
  · -- the proxy methods stand last, their texts are collected behind those of the methods
    intro s
    simp only [Shape.texts, List.flatMap_append, List.flatMap_singleton', List.mem_append,
      List.mem_cons, List.not_mem_nil, or_false, false_or, or_assoc]
    rw [or_comm (a := s ∈ (shape.proxyMethods.getD []).flatMap Method.texts)]
  · simp [Shape.counts]
  · simp only [Shape.shallow_iff, Shape.allMethods, List.forall_mem_append]
    simp only [implies_true, true_and, and_assoc]
    rw [and_comm (a := ∀ method ∈ shape.proxyMethods.getD [], _)]
  · simp only [putShape, putBoth, ok_bind, bind_assoc, pure_bind, List.append_assoc,
      List.cons_append, List.nil_append]

/-! ## The pool -/

namespace Pool

/-- A pool counts each text once. -/
theorem size_ofTexts (texts : List String) : (ofTexts texts).size = texts.dedup.length := by
  rw [size, ← Array.length_toList]
  refine ((List.perm_ext_iff_of_nodup (nodup _) texts.nodup_dedup).2 fun s => ?_).length_eq
  rw [Array.mem_toList_iff, mem_ofTexts, List.mem_dedup]

theorem exists_write_ofTexts {texts : List String} (hdistinct : texts.dedup.length < countLimit)
    (hlengths : ∀ s ∈ texts, s.utf8ByteSize < countLimit) :
    ∃ bytes, (ofTexts texts).write = .ok bytes := by
  refine exists_write (by rwa [size_ofTexts]) (longest_lt (capacity_pos 4) fun s hs => ?_)
  exact hlengths s (mem_ofTexts.1 hs)

/-- A pool that cannot be written is too large. -/
theorem write_ne_notPooled (pool : Pool) (text : String) :
    pool.write ≠ .error (.unwritable (.notPooled text)) := by
  intro h
  unfold write at h
  split at h
  · cases h
  · split at h <;> cases h

end Pool

end Blob

/-! ## Writing a shape -/

namespace Shape

variable {shape : Shape}

/-- The sizes of a shape that its blob has room for. -/
structure Countable (shape : Shape) : Prop where
  lists : ∀ n ∈ shape.counts, n < countLimit
  lengths : ∀ s ∈ shape.texts, s.utf8ByteSize < countLimit
  distinct : shape.texts.dedup.length < countLimit

instance (shape : Shape) : Decidable shape.Countable :=
  decidable_of_iff ((∀ n ∈ shape.counts, n < countLimit) ∧
      (∀ s ∈ shape.texts, s.utf8ByteSize < countLimit) ∧ shape.texts.dedup.length < countLimit)
    ⟨fun ⟨hlists, hlengths, hdistinct⟩ => ⟨hlists, hlengths, hdistinct⟩,
      fun h => ⟨h.lists, h.lengths, h.distinct⟩⟩

theorem pooled (shape : Shape) : ∀ s ∈ shape.texts, s ∈ (Pool.ofTexts shape.texts).texts :=
  fun _ hs => Pool.mem_ofTexts.2 hs

theorem toBytes_eq (hcheck : shape.check = .ok ()) :
    shape.toBytes = putBoth (.ok (mark ++ [UInt8.ofNat version]))
      (putBoth (Pool.ofTexts shape.texts).write (putShape (Pool.ofTexts shape.texts) shape)) := by
  unfold toBytes
  rw [hcheck]
  simp only [putBoth, ok_bind, pure_bind, bind_assoc, List.append_assoc, List.cons_append,
    List.nil_append]

/-- **A shape that keeps the rules and is shallow is written.** -/
theorem exists_toBytes (hsize : shape.Countable) (hcheck : shape.check = .ok ())
    (hshallow : shape.Shallow) : ∃ bytes, shape.toBytes = .ok bytes := by
  obtain ⟨texts, htexts⟩ := Pool.exists_write_ofTexts hsize.distinct hsize.lengths
  obtain ⟨body, hbody⟩ := (settles_shape shape).ok shape.pooled hsize.lists hshallow
  exact ⟨_, toBytes_of hcheck htexts hbody⟩

theorem exists_toBase64 (hsize : shape.Countable) (hcheck : shape.check = .ok ())
    (hshallow : shape.Shallow) : ∃ text, shape.toBase64 = .ok text := by
  obtain ⟨bytes, hbytes⟩ := exists_toBytes hsize hcheck hshallow
  exact ⟨_, map_eq_ok.2 ⟨bytes, hbytes, rfl⟩⟩

theorem toBytes_eq_tooDeep (hsize : shape.Countable) (hcheck : shape.check = .ok ())
    (hdeep : ¬ shape.Shallow) : shape.toBytes = .error .tooDeep := by
  obtain ⟨texts, htexts⟩ := Pool.exists_write_ofTexts hsize.distinct hsize.lengths
  rw [toBytes_eq hcheck, htexts, (settles_shape shape).deep shape.pooled hsize.lists hdeep]
  rfl

/-- Every text that is looked up was collected. -/
theorem toBytes_ne_notPooled (shape : Shape) (text : String) :
    shape.toBytes ≠ .error (.unwritable (.notPooled text)) := by
  cases hcheck : shape.check with
  | error fault =>
    unfold toBytes
    rw [hcheck]
    exact fun h => by cases h
  | ok _ =>
    have hpool := (Pool.ofTexts shape.texts).write_ne_notPooled text
    have hbody := (settles_shape shape).pooled shape.pooled text
    rw [toBytes_eq hcheck]
    exact putBoth_ne (fun h => by cases h) (putBoth_ne hpool hbody)

/-- **A shape of a size that can be counted is written if and only if it keeps the rules and
    neither a generic result nor the value of an annotation is nested too deep**; no text
    is ever missing from the pool. -/
theorem toBytes_settled (shape : Shape) :
    (shape.Countable →
      ((∃ bytes, shape.toBytes = .ok bytes) ↔ shape.check = .ok () ∧ shape.Shallow)) ∧
      ∀ text, shape.toBytes ≠ .error (.unwritable (.notPooled text)) := by
  refine ⟨fun hsize => ⟨?_, fun ⟨hcheck, hshallow⟩ => exists_toBytes hsize hcheck hshallow⟩,
    shape.toBytes_ne_notPooled⟩
  rintro ⟨bytes, hbytes⟩
  cases hcheck : shape.check with
  | error fault =>
    unfold toBytes at hbytes
    rw [hcheck] at hbytes
    cases hbytes
  | ok _ =>
    refine ⟨rfl, by_contra fun hdeep => ?_⟩
    rw [toBytes_eq_tooDeep hsize hcheck hdeep] at hbytes
    cases hbytes

/-! ### The limit of nesting -/

/-- An annotation whose value is a number of lists around nothing. -/
def towerNote (n : Nat) : Annotation :=
  Annotation.ofType "a.N" |>.withProperty "v" ((fun value => .list [value])^[n] .null)

/-- A class with this annotation and one method, whose generic result is the same number of
    arrays around the class. -/
def tower (n : Nat) : Shape :=
  { Shape.ofName "a.T" .cls with
    annotations := [towerNote n]
    methods := [⟨"m", "a.T", [], "a.T", {}, [], [], TypeExpr.array^[n] (.named "a.T")⟩] }

/-- The last tower that can be written and the first that cannot. -/
theorem toBytes_settled_tower :
    (∃ bytes, (tower 63).toBytes = .ok bytes) ∧ ¬ ∃ bytes, (tower 64).toBytes = .ok bytes := by
  obtain ⟨hlow, -⟩ := toBytes_settled (tower 63)
  obtain ⟨hhigh, -⟩ := toBytes_settled (tower 64)
  have hshallow : (tower 63).Shallow := by decide +kernel
  have hdeep : ¬ (tower 64).Shallow := by decide +kernel
  refine ⟨(hlow (by decide +kernel)).2 ⟨rfl, hshallow⟩, fun hwritten => ?_⟩
  exact hdeep ((hhigh (by decide +kernel)).1 hwritten).2

end Shape

end TypeAtlas
