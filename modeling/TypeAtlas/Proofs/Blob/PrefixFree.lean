/-
  No blob is the start of another.

  No part of the reader depends on what stands behind the bytes that it takes,
  although counts are compared with the bytes that are left: more bytes only make
  that check pass more often.

  * `persists_value`, `persists_type`: values and generic types, by induction on the
    levels that may still be entered;
  * `persists_shape`, `persists_front`: the shape, and all of a blob but the check
    of its end;
  * `Shape.ofBytes_prefixFree`: what is cut off from a blob that is read, or put
    behind it, makes it unreadable.
-/
import TypeAtlas.Proofs.Blob.RoundTrip
import TypeAtlas.Proofs.Wire.Persists

namespace TypeAtlas

open TypeAtlas.Wire

namespace Blob

variable {α : Type}

theorem persists_scan {scan : Scan α} (h : Persists scan) : Persists (ofScan scan) := h.adapt _

theorem persists_refuse (mistake : Misformed) : Persists (refuse mistake : Read α) := .throw _

theorem persists_times {read : Read α} (h : Persists read) (n : Nat) (done : List α) :
    Persists (times read n done) := by
  induction n generalizing done with
  | zero => exact .pure _
  | succ n ih => exact h.bind fun item => ih (item :: done)

/-! ## The pool -/

theorem persists_pool (guarded : Bool) : Persists (PoolTable.read guarded) := by
  unfold PoolTable.read
  refine (persists_scan .byte).bind fun header => .check _ ?_
  refine (persists_scan (.number _)).bind fun count => .room (fun remaining =>
    BlobError.misformed (.poolCount count remaining)) ?_
  have htext : Persists (PoolTable.readText (.ofSelector (header.toNat / 16))) :=
    persists_scan ((Persists.number _).bind .text)
  exact (persists_times htext count []).bind fun texts => .pure _

theorem persists_readRef (table : PoolTable) : Persists table.readRef := by
  unfold PoolTable.readRef
  refine (persists_scan (.number _)).bind fun index => ?_
  cases table.text? index with
  | ok s => exact .pure s
  | error e => exact .throw e

namespace Source

variable (source : Source)

/-! ## Counts and lists -/

theorem persists_ref : Persists source.ref := persists_readRef source.pool

theorem persists_byte : Persists byte := persists_scan .byte

theorem persists_count (part : Part) (width : Width) : Persists (source.count part width) := by
  unfold count
  exact (persists_scan (.number width)).bind fun n =>
    .room (fun remaining => BlobError.misformed (.count part n remaining)) (.pure n)

theorem persists_size (part : Part) : Persists (source.size part) := by
  unfold size
  exact persists_byte.bind fun selector => .check _ (source.persists_count part _)

variable {read : Read α}

theorem persists_list (part : Part) (h : Persists read) : Persists (source.list part read) :=
  (source.persists_size part).bind fun n => persists_times h n []

theorem persists_counted (part : Part) (width : Width) (h : Persists read) :
    Persists (source.counted part width read) :=
  (source.persists_count part width).bind fun n => persists_times h n []

theorem persists_option (mistake : UInt8 → Misformed) (h : Persists read) :
    Persists (option mistake read) := by
  unfold option
  refine persists_byte.bind fun presence => ?_
  split
  · exact .pure none
  · exact h.map some
  · exact persists_refuse _

/-! ## Values and generic types -/

/-- **Reading a value does not depend on what stands behind it.** -/
theorem persists_value (room : Nat) : Persists (source.value room) := by
  induction room with
  | zero => exact .throw _
  | succ room ih =>
    unfold value
    refine persists_byte.bind fun tag => ?_
    split
    · exact .pure _
    · exact source.persists_ref.map _
    · refine persists_byte.bind fun bit => ?_
      split
      · exact .pure _
      · exact .pure _
      · exact persists_refuse _
    · exact (persists_scan .int32).map _
    · exact (persists_scan .int64).map _
    · exact (persists_scan .float32).map _
    · exact (persists_scan .float64).map _
    · exact (source.persists_counted .values .one ih).map _
    · exact (source.persists_counted .values .two ih).map _
    · exact (source.persists_counted .values .three ih).map _
    · exact (source.persists_counted .values .four ih).map _
    · exact source.persists_ref.map _
    · exact persists_refuse _

/-- **Reading a generic type does not depend on what stands behind it.** -/
theorem persists_type (room : Nat) : Persists (source.type room) := by
  induction room with
  | zero => exact .throw _
  | succ room ih =>
    have hargs := source.persists_list .typeArguments ih
    unfold type
    refine persists_byte.bind fun tag => ?_
    split
    · exact source.persists_ref.map _
    · exact source.persists_ref.bind fun raw => (persists_option .ownerPresence ih).bind
        fun owner => hargs.bind fun args => .pure _
    · exact source.persists_ref.bind fun name => hargs.bind fun bounds => .pure _
    · exact hargs.bind fun upper => hargs.bind fun lower => .pure _
    · exact ih.map _
    · exact persists_refuse _

/-! ## Annotations and members -/

theorem persists_property : Persists source.property :=
  source.persists_ref.bind fun _ => (source.persists_value nestingLimit).bind fun _ => .pure _

theorem persists_note : Persists source.note :=
  source.persists_ref.bind fun _ => source.persists_ref.bind fun _ =>
    (persists_option .namePresence source.persists_ref).bind fun _ =>
      (source.persists_list .properties source.persists_property).bind fun _ => .pure _

theorem persists_annotations : Persists source.annotations :=
  source.persists_list .annotations source.persists_note

theorem persists_parameterAnnotations : Persists source.parameterAnnotations :=
  source.persists_list .parameterAnnotations source.persists_annotations

theorem persists_parameters : Persists (source.list .parameters source.ref) :=
  source.persists_list .parameters source.persists_ref

theorem persists_memberModifiers : Persists memberModifiers := by
  unfold memberModifiers
  exact persists_byte.bind fun flags => .check _ (.pure _)

theorem persists_constructor : Persists source.constructor :=
  source.persists_ref.bind fun _ => persists_memberModifiers.bind fun _ =>
    source.persists_parameters.bind fun _ => source.persists_annotations.bind fun _ =>
      source.persists_parameterAnnotations.bind fun _ => .pure _

theorem persists_method : Persists source.method :=
  source.persists_ref.bind fun _ => source.persists_ref.bind fun _ =>
    source.persists_ref.bind fun _ => persists_memberModifiers.bind fun _ =>
      source.persists_parameters.bind fun _ => source.persists_annotations.bind fun _ =>
        source.persists_parameterAnnotations.bind fun _ =>
          (source.persists_type nestingLimit).bind fun _ => .pure _

theorem persists_field : Persists source.field :=
  source.persists_ref.bind fun _ => source.persists_ref.bind fun _ =>
    source.persists_ref.bind fun _ => persists_memberModifiers.bind fun _ =>
      source.persists_annotations.bind fun _ => .pure _

/-! ## The shape -/

theorem persists_superclass (present : Bool) : Persists (source.superclass present) :=
  .ite (source.persists_ref.map some) (.pure none)

theorem persists_proxyMethods : Persists source.proxyMethods := by
  have hcounted := fun width =>
    (source.persists_counted .proxyMethods width source.persists_method).map some
  unfold proxyMethods
  refine persists_byte.bind fun presence => ?_
  split
  · exact .pure none
  · exact hcounted .one
  · exact hcounted .two
  · exact hcounted .three
  · exact hcounted .four
  · exact persists_refuse _

/-- **Reading a shape does not depend on what stands behind it.** -/
theorem persists_shape : Persists source.shape := by
  unfold shape
  refine source.persists_ref.bind fun simpleName => source.persists_ref.bind fun name => ?_
  refine persists_byte.bind fun flags => .check _ ?_
  refine persists_byte.bind fun layout => (source.persists_superclass _).bind fun superclass => ?_
  refine (source.persists_counted .interfaces _ source.persists_ref).bind fun interfaces => ?_
  refine source.persists_annotations.bind fun annotations => ?_
  refine (source.persists_counted .constructors _ source.persists_constructor).bind
    fun constructors => ?_
  refine (source.persists_counted .methods _ source.persists_method).bind fun methods => ?_
  refine (source.persists_counted .fields _ source.persists_field).bind fun fields => ?_
  refine source.persists_proxyMethods.bind fun proxyMethods => ?_
  extract_lets shape
  split
  · exact .pure _
  · exact persists_refuse _

end Source

/-! ## Blobs -/

/-- All of a blob but the check that nothing stands behind it. -/
def readFront (guarded : Bool) : Read Shape := do
  let found ← ofScan (Scan.take mark.length)
  if found ≠ mark then throw (.mark found)
  let version ← Source.byte
  if version.toNat ≠ Blob.version then throw (.version version)
  let pool ← PoolTable.read guarded
  Source.shape ⟨pool, guarded⟩

theorem persists_front (guarded : Bool) : Persists (readFront guarded) := by
  unfold readFront
  refine (persists_scan (.take _)).bind fun found => .check _ ?_
  refine Source.persists_byte.bind fun version => .check _ ?_
  exact (persists_pool guarded).bind fun pool => Source.persists_shape _

/-- Refuses a blob behind whose shape bytes are left. -/
def atEnd (shape : Shape) : Read Shape := do
  let remaining := (← get).remaining
  if remaining ≠ 0 then refuse (.trailing remaining)
  return shape

/-- A blob is read in front, and then its end is checked. -/
theorem readBlob_eq (guarded : Bool) : readBlob guarded = readFront guarded >>= atEnd := by
  unfold readBlob readFront
  simp only [bind_assoc]
  congr 1
  funext found
  by_cases hmark : found ≠ mark
  · rw [if_pos hmark, if_pos hmark]
    rfl
  · rw [if_neg hmark, if_neg hmark, bind_assoc]
    congr 1
    funext version
    by_cases hversion : version.toNat ≠ Blob.version
    · rw [if_pos hversion, if_pos hversion]
      rfl
    · rw [if_neg hversion, if_neg hversion, bind_assoc]
      rfl

theorem atEnd_run (shape : Shape) (cursor : Cursor) :
    atEnd shape cursor =
      if cursor.remaining = 0 then .ok shape cursor
      else .error (.misformed (.trailing cursor.remaining)) cursor := by
  unfold atEnd
  show (if cursor.remaining ≠ 0 then refuse (.trailing cursor.remaining) >>= fun _ => pure shape
    else pure shape : Read Shape) cursor = _
  by_cases hend : cursor.remaining = 0
  · rw [if_pos hend, if_neg (not_not.2 hend)]
    rfl
  · rw [if_neg hend, if_pos hend]
    rfl

theorem run_eq_ok_iff {read : Read α} {bytes : List UInt8} {a : α} :
    read.run bytes = .ok a ↔ ∃ next, read (.start bytes) = .ok a next := by
  unfold Read.run
  cases read (.start bytes) <;> simp

/-- A blob that is read has a front behind which nothing stands. -/
theorem exists_front {bytes : List UInt8} {shape : Shape} (h : Shape.ofBytes bytes = .ok shape) :
    ∃ next, readFront true (.start bytes) = .ok shape next ∧ next.remaining = 0 := by
  obtain ⟨next, hblob⟩ := run_eq_ok_iff.1 h
  rw [readBlob_eq, bind_run_eq_ok] at hblob
  obtain ⟨found, middle, hfront, hend⟩ := hblob
  rw [atEnd_run] at hend
  split at hend
  · next hremaining =>
    cases hend
    exact ⟨_, hfront, hremaining⟩
  · cases hend

/-- Bytes behind a blob that is read are refused, all of them together. -/
theorem ofBytes_append {bytes : List UInt8} {shape : Shape} (h : Shape.ofBytes bytes = .ok shape)
    {more : List UInt8} (hmore : more ≠ []) :
    Shape.ofBytes (bytes ++ more) = .error (.misformed (.trailing more.length)) := by
  obtain ⟨next, hfront, hend⟩ := exists_front h
  have hlonger : readFront true (.start (bytes ++ more)) = .ok shape (next.widen more) :=
    persists_front true hfront more
  have hremaining : (next.widen more).remaining = more.length := by
    rw [Cursor.remaining_widen, hend, Nat.zero_add]
  have hblob : readBlob true (.start (bytes ++ more)) = atEnd shape (next.widen more) := by
    rw [readBlob_eq]
    show EStateM.bind _ _ _ = _
    rw [EStateM.bind, hlonger]
  rw [Shape.ofBytes, Read.run, hblob, atEnd_run, hremaining, if_neg]
  exact fun hlength => hmore (List.length_eq_zero_iff.1 hlength)

end Blob

/-- **No blob is the start of another.**  Bytes put behind a blob that can be read are
    refused as such, and what is left of it without its last bytes cannot be read. -/
theorem Shape.ofBytes_prefixFree {bytes : List UInt8} {shape : Shape}
    (h : Shape.ofBytes bytes = .ok shape) :
    (∀ longer, bytes <+: longer → longer ≠ bytes → Shape.ofBytes longer =
      .error (.misformed (.trailing (longer.length - bytes.length)))) ∧
      ∀ shorter, shorter <+: bytes → shorter ≠ bytes → ∃ e, Shape.ofBytes shorter = .error e := by
  constructor
  · rintro _ ⟨more, rfl⟩ hne
    have hmore : more ≠ [] := by
      rintro rfl
      exact hne (List.append_nil bytes)
    rw [Blob.ofBytes_append h hmore, List.length_append, Nat.add_sub_cancel_left]
  · rintro shorter ⟨more, rfl⟩ hne
    cases hshorter : Shape.ofBytes shorter with
    | error e => exact ⟨e, rfl⟩
    | ok found =>
      have hmore : more ≠ [] := by
        rintro rfl
        exact hne (List.append_nil shorter).symm
      rw [Blob.ofBytes_append hshorter hmore] at h
      cases h

/-- A blob with a byte behind it, and the same blob without its last byte. -/
theorem Shape.ofBytes_prefixFree_marker :
    Shape.ofBytes Blob.markerBytes = .ok Blob.marker ∧
      Shape.ofBytes (Blob.markerBytes ++ [0]) = .error (.misformed (.trailing 1)) ∧
      ∃ e, Shape.ofBytes Blob.markerBytes.dropLast = .error e := by
  have hread : Shape.ofBytes Blob.markerBytes = .ok Blob.marker :=
    Blob.readBlob_of_toBytes Blob.toBytes_marker true
  obtain ⟨hlonger, hshorter⟩ := Shape.ofBytes_prefixFree hread
  exact ⟨hread, hlonger _ (List.prefix_append _ _) (by decide),
    hshorter _ (List.dropLast_prefix _) (by decide)⟩

end TypeAtlas
