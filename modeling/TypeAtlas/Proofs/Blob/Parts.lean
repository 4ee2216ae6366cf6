/-
  Parts of a blob, written and read back.

  `Restores read put` says that `read` undoes the writer `put`: whatever `put`
  writes takes at least one byte, and `read` makes the same part of it.

  * `Restores.list` and `Restores.counted`: lists of such parts, with a count
    that the guard lets pass, since each item takes a byte;
  * `restores_value`, `restores_type`: values and generic types, by induction on
    the levels that may still be entered;
  * `restores_note`, `restores_constructor`, `restores_method`, `restores_field`:
    annotations and members.
-/
import TypeAtlas.Proofs.Blob.Pool
import TypeAtlas.Proofs.Table

namespace TypeAtlas.Blob

open TypeAtlas.Wire

variable {α β : Type}

/-- `read` makes of what `put` wrote what was written, and takes at least a byte. -/
def Restores (read : Read α) (put : α → Written) : Prop :=
  ∀ ⦃a : α⦄ ⦃bytes : List UInt8⦄, put a = .ok bytes → bytes ≠ [] ∧ Reads read bytes a

/-! ## Lists -/

theorem putAll_eq_ok {put : α → Written} {items : List α} {bytes : List UInt8} :
    putAll put items = .ok bytes ↔
      ∃ chunks, List.Forall₂ (fun item chunk => put item = .ok chunk) items chunks ∧
        chunks.flatten = bytes := by
  simp only [putAll, map_eq_ok, mapM_eq_ok_iff]

theorem widthOf_eq_ok {n : Nat} {width : Width} :
    widthOf n = .ok width ↔ n < countLimit ∧ .fit n = width := by
  unfold widthOf
  split
  · next h => simp [h]
  · next h => simp [h]

/-- Lists behind a count whose width is known. -/
theorem Restores.counted {read : Read α} {put : α → Written} (h : Restores read put)
    {items : List α} {bytes : List UInt8} (hput : putAll put items = .ok bytes)
    {width : Width} (hwidth : items.length < capacity width.size) (source : Source) (part : Part) :
    Reads (source.counted part width read) (putNumber width items.length ++ bytes) items := by
  obtain ⟨chunks, hchunks, rfl⟩ := putAll_eq_ok.1 hput
  have hreads : List.Forall₂ (Reads read) chunks items :=
    hchunks.flip.imp fun chunk item hc => (h hc).2
  have hleast : items.length ≤ chunks.flatten.length := by
    have hone := length_mul_le_flatten 1 chunks fun chunk hmem => by
      obtain ⟨item, -, hc⟩ := exists_of_mem_right hchunks hmem
      exact List.length_pos_of_ne_nil (h hc).1
    rwa [Nat.mul_one, ← hchunks.length_eq] at hone
  unfold Source.counted Source.count
  simp only [bind_assoc]
  refine (reads_scan (Reads.number hwidth)).bind (Reads.remaining fun cursor hleft => ?_)
  rw [if_neg]
  · exact reads_times hreads []
  · simp only [Bool.and_eq_true, decide_eq_true_eq, not_and, Nat.not_lt]
    exact fun _ => Nat.le_trans hleast hleft

theorem toNat_selectorByte (width : Width) : (selectorByte width).toNat = width.selector := by
  have h := width.selector_lt
  rw [selectorByte, UInt8.toNat_ofNat']
  omega

/-- Lists behind a count and the byte that names its width. -/
theorem Restores.list {read : Read α} {put : α → Written} (h : Restores read put)
    (source : Source) (part : Part) : Restores (source.list part read) (putList put) := by
  intro items bytes hput
  simp only [putList, putSize, bind_eq_ok, pure_eq_ok, widthOf_eq_ok] at hput
  obtain ⟨_, ⟨width, ⟨hcount, rfl⟩, rfl⟩, body, hbody, rfl⟩ := hput
  have hselector := toNat_selectorByte (.fit items.length)
  have hfits := Width.lt_of_fit hcount (Nat.le_refl _)
  refine ⟨by simp, ?_⟩
  have hlist := h.counted hbody hfits source part
  unfold Source.counted at hlist
  unfold Source.list Source.size
  simp only [bind_assoc]
  refine (reads_scan (Reads.byte _)).bind ?_
  rw [if_neg]
  · rw [hselector, Width.ofSelector_selector]
    exact hlist
  · have := (Width.fit items.length).selector_lt
    omega

/-! ## Parts that may be absent -/

theorem putAll_cons {put : α → Written} {item : α} {rest : List α} :
    putAll put (item :: rest) = do return (← put item) ++ (← putAll put rest) := by
  cases hitem : put item with
  | error e => simp [putAll, hitem, bind, Except.bind, Functor.map, Except.map]
  | ok bytes =>
    cases hrest : rest.mapM put with
    | error e => simp [putAll, hitem, hrest, bind, Except.bind, Functor.map, Except.map]
    | ok chunks =>
      simp [putAll, hitem, hrest, bind, Except.bind, Functor.map, Except.map, pure, Except.pure]

theorem Restores.option {read : Read α} {put : α → Written} (h : Restores read put)
    (mistake : UInt8 → Misformed) : Restores (Source.option mistake read) (putOption put) := by
  intro part bytes hput
  cases part with
  | none =>
    simp only [putOption, Except.ok.injEq] at hput
    subst hput
    exact ⟨by simp, (reads_scan (Reads.byte 0)).bind (Reads.pure none)⟩
  | some part =>
    simp only [putOption, map_eq_ok] at hput
    obtain ⟨body, hbody, rfl⟩ := hput
    exact ⟨by simp, (reads_scan (Reads.byte 1)).bind ((h hbody).2.map rfl)⟩

/-! ## Values -/

/-- The writer of a list of values gathers what the writer of one value gives. -/
theorem putValues_eq (pool : Pool) (room : Nat) (done : List (List UInt8))
    (items : List AnnotationValue) :
    putValues pool room done items =
      (done.reverse.flatten ++ ·) <$> putAll (putValue pool room) items := by
  induction items generalizing done with
  | nil => simp [putValues, putAll, Functor.map, Except.map, pure, Except.pure]
  | cons value rest ih =>
    rw [putValues, putAll_cons]
    cases putValue pool room value with
    | error e => rfl
    | ok chunk =>
      rw [ok_bind, ok_bind, ih]
      cases putAll (putValue pool room) rest with
      | error e => rfl
      | ok body => simp [Functor.map, Except.map, bind, Except.bind, pure, Except.pure]

theorem putValues_eq_ok {pool : Pool} {room : Nat} {items : List AnnotationValue}
    {done : List (List UInt8)} {bytes : List UInt8}
    (h : putValues pool room done items = .ok bytes) :
    ∃ body, putAll (putValue pool room) items = .ok body ∧
      done.reverse.flatten ++ body = bytes := by
  rwa [putValues_eq, map_eq_ok] at h

variable {source : Source} {pool : Pool}

/-- **Values are read as they were written.** -/
theorem restores_value (hs : source.Holds pool) (room : Nat) :
    Restores (source.value room) (putValue pool room) := by
  induction room with
  | zero => intro value bytes h; simp [putValue] at h
  | succ room ih =>
    intro value bytes h
    unfold Source.value
    cases value with
    | null =>
      simp only [putValue, Except.ok.injEq] at h
      subst h
      exact ⟨by simp, (reads_scan (Reads.byte 0)).bind (Reads.pure _)⟩
    | text s =>
      simp only [putValue, map_eq_ok] at h
      obtain ⟨body, hbody, rfl⟩ := h
      exact ⟨by simp, (reads_scan (Reads.byte 1)).bind ((reads_ref hs hbody).map rfl)⟩
    | flag b =>
      simp only [putValue, Except.ok.injEq] at h
      subst h
      refine ⟨by simp, (reads_scan (Reads.byte 2)).bind ?_⟩
      cases b with
      | false => exact (reads_scan (Reads.byte 0)).bind (Reads.pure _)
      | true => exact (reads_scan (Reads.byte 1)).bind (Reads.pure _)
    | int n =>
      simp only [putValue, Except.ok.injEq] at h
      subst h
      exact ⟨by simp, (reads_scan (Reads.byte 3)).bind ((reads_scan (Reads.int32 n)).map rfl)⟩
    | long n =>
      simp only [putValue, Except.ok.injEq] at h
      subst h
      exact ⟨by simp, (reads_scan (Reads.byte 4)).bind ((reads_scan (Reads.int64 n)).map rfl)⟩
    | float x =>
      simp only [putValue, Except.ok.injEq] at h
      subst h
      exact ⟨by simp, (reads_scan (Reads.byte 5)).bind ((reads_scan (Reads.float32 x)).map rfl)⟩
    | double x =>
      simp only [putValue, Except.ok.injEq] at h
      subst h
      exact ⟨by simp, (reads_scan (Reads.byte 6)).bind ((reads_scan (Reads.float64 x)).map rfl)⟩
    | list items =>
      simp only [putValue, bind_eq_ok, pure_eq_ok, widthOf_eq_ok] at h
      obtain ⟨width, ⟨hcount, hwidth⟩, body, hbody, rfl⟩ := h
      obtain ⟨body, hitems, rfl⟩ := putValues_eq_ok hbody
      have hfits : items.length < capacity width.size :=
        hwidth ▸ Width.lt_of_fit hcount (Nat.le_refl _)
      have hlist := ih.counted hitems hfits source .values
      refine ⟨by simp, ?_⟩
      clear hwidth
      cases width with
      | one => exact (reads_scan (Reads.byte 7)).bind (hlist.map rfl)
      | two => exact (reads_scan (Reads.byte 8)).bind (hlist.map rfl)
      | three => exact (reads_scan (Reads.byte 9)).bind (hlist.map rfl)
      | four => exact (reads_scan (Reads.byte 10)).bind (hlist.map rfl)
    | other s =>
      simp only [putValue, map_eq_ok] at h
      obtain ⟨body, hbody, rfl⟩ := h
      exact ⟨by simp, (reads_scan (Reads.byte 11)).bind ((reads_ref hs hbody).map rfl)⟩

/-! ## Generic types -/

theorem putOwner_eq (pool : Pool) (room : Nat) (owner : Option TypeExpr) :
    putOwner pool room owner = putOption (putType pool room) owner := by
  cases owner <;> simp only [putOwner, putOption]

/-- The writer of a list of types gathers what the writer of one type gives. -/
theorem putTypes_eq (pool : Pool) (room : Nat) (done : List (List UInt8))
    (items : List TypeExpr) :
    putTypes pool room done items =
      (done.reverse.flatten ++ ·) <$> putAll (putType pool room) items := by
  induction items generalizing done with
  | nil => simp [putTypes, putAll, Functor.map, Except.map, pure, Except.pure]
  | cons expr rest ih =>
    rw [putTypes, putAll_cons]
    cases putType pool room expr with
    | error e => rfl
    | ok chunk =>
      rw [ok_bind, ok_bind, ih]
      cases putAll (putType pool room) rest with
      | error e => rfl
      | ok body => simp [Functor.map, Except.map, bind, Except.bind, pure, Except.pure]

theorem putTypes_eq_ok {room : Nat} {items : List TypeExpr}
    {done : List (List UInt8)} {bytes : List UInt8}
    (h : putTypes pool room done items = .ok bytes) :
    ∃ body, putAll (putType pool room) items = .ok body ∧
      done.reverse.flatten ++ body = bytes := by
  rwa [putTypes_eq, map_eq_ok] at h

/-- A list of types behind its size, as its writer puts it into a type. -/
theorem reads_types {room : Nat} (h : Restores (source.type room) (putType pool room))
    {items : List TypeExpr} {size body : List UInt8} (hsize : putSize items.length = .ok size)
    (hbody : putTypes pool room [] items = .ok body) :
    Reads (source.list .typeArguments (source.type room)) (size ++ body) items := by
  obtain ⟨body, hitems, rfl⟩ := putTypes_eq_ok hbody
  refine (h.list source .typeArguments ?_).2
  rw [putList, hsize, hitems]
  rfl

/-- **Generic types are read as they were written.** -/
theorem restores_type (hs : source.Holds pool) (room : Nat) :
    Restores (source.type room) (putType pool room) := by
  induction room with
  | zero => intro expr bytes h; simp [putType] at h
  | succ room ih =>
    intro expr bytes h
    unfold Source.type
    cases expr with
    | named name =>
      simp only [putType, map_eq_ok] at h
      obtain ⟨body, hbody, rfl⟩ := h
      exact ⟨by simp, (reads_scan (Reads.byte 0)).bind ((reads_ref hs hbody).map rfl)⟩
    | applied raw owner args =>
      simp only [putType, bind_eq_ok, pure_eq_ok, putOwner_eq] at h
      obtain ⟨bytes₁, hraw, bytes₂, howner, bytes₃, hsize, bytes₄, hargs, rfl⟩ := h
      refine ⟨by simp, (reads_scan (Reads.byte 1)).bind ?_⟩
      exact ((reads_ref hs hraw).bind ((ih.option .ownerPresence howner).2.bind
        (reads_types ih hsize hargs).last)).of_eq (by simp)
    | typeVar name bounds =>
      simp only [putType, bind_eq_ok, pure_eq_ok] at h
      obtain ⟨bytes₁, hname, bytes₂, hsize, bytes₃, hbounds, rfl⟩ := h
      refine ⟨by simp, (reads_scan (Reads.byte 2)).bind ?_⟩
      exact ((reads_ref hs hname).bind (reads_types ih hsize hbounds).last).of_eq (by simp)
    | wildcard upper lower =>
      simp only [putType, bind_eq_ok, pure_eq_ok] at h
      obtain ⟨bytes₁, hsize, bytes₂, hupper, bytes₃, hsize', bytes₄, hlower, rfl⟩ := h
      refine ⟨by simp, (reads_scan (Reads.byte 3)).bind ?_⟩
      exact ((reads_types ih hsize hupper).bind
        (reads_types ih hsize' hlower).last).of_eq (by simp)
    | array component =>
      simp only [putType, map_eq_ok] at h
      obtain ⟨body, hbody, rfl⟩ := h
      exact ⟨by simp, (reads_scan (Reads.byte 4)).bind ((ih hbody).2.map rfl)⟩

/-! ## Annotations -/

theorem restores_ref (hs : source.Holds pool) : Restores source.ref (putRef pool) := by
  intro s bytes h
  refine ⟨?_, reads_ref hs h⟩
  obtain ⟨i, -, rfl⟩ := putRef_eq_ok.1 h
  have hsize := pool.indexWidth.size_pos
  intro hnil
  rw [← List.length_eq_zero_iff, length_putNumber] at hnil
  omega

theorem restores_property (hs : source.Holds pool) :
    Restores source.property (putProperty pool) := by
  intro entry bytes h
  simp only [putProperty, bind_eq_ok, pure_eq_ok] at h
  obtain ⟨bytes₁, hname, bytes₂, hvalue, rfl⟩ := h
  exact ⟨by simp [(restores_ref hs hname).1],
    (reads_ref hs hname).bind ((restores_value hs nestingLimit) hvalue).2.last⟩

/-- **Annotations are read as they were written**, their properties in order. -/
theorem restores_note (hs : source.Holds pool) : Restores source.note (putNote pool) := by
  intro note bytes h
  simp only [putNote, bind_eq_ok, pure_eq_ok] at h
  obtain ⟨bytes₁, htype, bytes₂, hsimple, bytes₃, hqualified, bytes₄, hproperties, rfl⟩ := h
  refine ⟨by simp [(restores_ref hs htype).1], ?_⟩
  have hread := ((restores_property hs).list source .properties hproperties).2
  obtain ⟨typeName, simpleName, qualifiedName, properties⟩ := note
  rw [← properties.ofList_entries]
  exact ((reads_ref hs htype).bind ((reads_ref hs hsimple).bind
    (((restores_ref hs).option .namePresence hqualified).2.bind hread.last))).of_eq (by simp)

theorem restores_annotations (hs : source.Holds pool) :
    Restores source.annotations (putAnnotations pool) :=
  (restores_note hs).list source .annotations

theorem restores_parameterAnnotations (hs : source.Holds pool) :
    Restores source.parameterAnnotations (putList (putAnnotations pool)) :=
  (restores_annotations hs).list source .parameterAnnotations

/-! ## Flags -/

/-- The number whose bits are the flags. -/
def flagNumber (flags : List Bool) : Nat := flags.foldr (fun flag n => flag.toNat + 2 * n) 0

theorem flagNumber_lt (flags : List Bool) : flagNumber flags < 1 <<< flags.length := by
  induction flags with
  | nil => simp [flagNumber]
  | cons flag rest ih =>
    have hflag : flag.toNat ≤ 1 := flag.toNat_le
    simp only [flagNumber, List.foldr_cons, List.length_cons, Nat.shiftLeft_succ] at ih ⊢
    omega

theorem testBit_flagNumber (flags : List Bool) (i : Nat) :
    (flagNumber flags).testBit i = flags.getD i false := by
  induction flags generalizing i with
  | nil => simp [flagNumber]
  | cons flag rest ih =>
    have hcons : flagNumber (flag :: rest) = flag.toNat + 2 * flagNumber rest := rfl
    have hflag : flag.toNat ≤ 1 := flag.toNat_le
    cases i with
    | zero =>
      rw [hcons, Nat.testBit_zero]
      cases flag <;> simp
    | succ i =>
      rw [hcons, Nat.testBit_succ, List.getD_cons_succ, ← ih]
      congr 1
      omega

theorem toNat_putFlags {flags : List Bool} (h : flags.length ≤ 8) :
    (putFlags flags).toNat = flagNumber flags := by
  have hlt := flagNumber_lt flags
  have hpow : 1 <<< flags.length ≤ 1 <<< 8 := by
    simp only [Nat.shiftLeft_eq, Nat.one_mul]
    exact Nat.pow_le_pow_right (by omega) h
  show (UInt8.ofNat (flagNumber flags)).toNat = _
  rw [UInt8.toNat_ofNat']
  omega

theorem bit_putFlags {flags : List Bool} (h : flags.length ≤ 8) (i : Nat) :
    Source.bit (putFlags flags) i = flags.getD i false := by
  rw [Source.bit, toNat_putFlags h, testBit_flagNumber]

/-- The modifiers of a member in one byte. -/
theorem reads_memberModifiers (modifiers : MemberModifiers) :
    Reads Source.memberModifiers [memberFlags modifiers] modifiers := by
  have hlt : (memberFlags modifiers).toNat < 8 := by
    rw [memberFlags, toNat_putFlags (by simp)]
    exact flagNumber_lt [_, _, _]
  have hbit : ∀ i, Source.bit (memberFlags modifiers) i =
      [modifiers.isStatic, modifiers.isFinal, modifiers.isAbstract].getD i false :=
    bit_putFlags (by simp)
  unfold Source.memberModifiers
  refine (reads_scan (Reads.byte _)).bind (Reads.passing (by omega) ?_)
  simp only [hbit]
  exact Reads.pure _

/-! ## Members -/

/-- **Constructors are read as they were written.** -/
theorem restores_constructor (hs : source.Holds pool) :
    Restores source.constructor (putConstructor pool) := by
  intro ctor bytes h
  simp only [putConstructor, bind_eq_ok, pure_eq_ok] at h
  obtain ⟨bytes₁, hdeclaring, bytes₂, hparameters, bytes₃, hnotes, bytes₄, hparameterNotes,
    rfl⟩ := h
  refine ⟨by simp, ?_⟩
  exact ((reads_ref hs hdeclaring).bind ((reads_memberModifiers ctor.modifiers).bind
    (((restores_ref hs).list source .parameters hparameters).2.bind
      ((restores_annotations hs hnotes).2.bind
        (restores_parameterAnnotations hs hparameterNotes).2.last)))).of_eq (by simp)

/-- **Methods are read as they were written.** -/
theorem restores_method (hs : source.Holds pool) : Restores source.method (putMethod pool) := by
  intro method bytes h
  simp only [putMethod, bind_eq_ok, pure_eq_ok] at h
  obtain ⟨bytes₁, hname, bytes₂, hdeclaring, bytes₃, hreturns, bytes₄, hparameters,
    bytes₅, hnotes, bytes₆, hparameterNotes, bytes₇, hgeneric, rfl⟩ := h
  refine ⟨by simp, ?_⟩
  exact ((reads_ref hs hname).bind ((reads_ref hs hdeclaring).bind ((reads_ref hs hreturns).bind
    ((reads_memberModifiers method.modifiers).bind
      (((restores_ref hs).list source .parameters hparameters).2.bind
        ((restores_annotations hs hnotes).2.bind
          ((restores_parameterAnnotations hs hparameterNotes).2.bind
            (restores_type hs nestingLimit hgeneric).2.last))))))).of_eq (by simp)

/-- **Fields are read as they were written.** -/
theorem restores_field (hs : source.Holds pool) : Restores source.field (putField pool) := by
  intro field bytes h
  simp only [putField, bind_eq_ok, pure_eq_ok] at h
  obtain ⟨bytes₁, hname, bytes₂, hdeclaring, bytes₃, htype, bytes₄, hnotes, rfl⟩ := h
  refine ⟨by simp, ?_⟩
  exact ((reads_ref hs hname).bind ((reads_ref hs hdeclaring).bind ((reads_ref hs htype).bind
    ((reads_memberModifiers field.modifiers).bind
      (restores_annotations hs hnotes).2.last)))).of_eq (by simp)

end TypeAtlas.Blob
