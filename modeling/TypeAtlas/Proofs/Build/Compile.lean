/-
  Compiled types.

  * `Shape.compile_eq_ok`: compiling makes a call table and the blob of the
    shape;
  * `Shape.proxyMethods_of_compileTable`: the table keeps the shape's name and
    the methods that a stand-in answers, in their order;
  * `Shape.compile_eq_withLineage`: a lineage is kept in the table and changes nothing
    else, also where compiling fails;
  * `Handle.shape_of_compile`: a handle of a compiled shape has that shape.
-/
import TypeAtlas.Engine.Handle
import TypeAtlas.Proofs.Blob.RoundTrip

namespace TypeAtlas

variable {shape : Shape} {mode : CompileMode} {bindings : Bindings} {compiled : Compiled}

namespace Shape

theorem compile_eq_ok (h : shape.compile mode bindings = .ok compiled) :
    shape.toBase64 = .ok compiled.blob ∧ shape.compileTable mode bindings = .ok compiled.table := by
  unfold compile at h
  cases hblob : shape.toBase64 with
  | error e =>
    rw [hblob] at h
    cases h
  | ok text =>
    rw [hblob] at h
    simp only [bind_eq_ok, pure_eq_ok] at h
    obtain ⟨_, ⟨⟩, table, htable, rfl⟩ := h
    exact ⟨rfl, htable⟩

theorem exists_compile (hblob : ∃ text, shape.toBase64 = .ok text)
    (htable : ∃ table, shape.compileTable mode bindings = .ok table) :
    ∃ compiled, shape.compile mode bindings = .ok compiled := by
  obtain ⟨text, hblob⟩ := hblob
  obtain ⟨table, htable⟩ := htable
  unfold compile
  rw [hblob, htable]
  exact ⟨_, rfl⟩

theorem proxyMethods_of_compileTable {table : CallTable}
    (h : shape.compileTable mode bindings = .ok table) :
    table.typeName = shape.name ∧ table.proxyMethods = shape.proxyMethods.getD [] := by
  unfold compileTable at h
  split at h
  · cases h
  · simp only [bind_eq_ok, pure_eq_ok] at h
    obtain ⟨_, -, _, -, _, -, _, -, _, -, _, -, rfl⟩ := h
    exact ⟨rfl, rfl⟩

end Shape

/-! ## Lineages -/

def CallTable.withLineage (table : CallTable) (lineage : Option Lineage) : CallTable :=
  { table with lineage := lineage }

def Compiled.withLineage (compiled : Compiled) (lineage : Option Lineage) : Compiled :=
  { compiled with table := compiled.table.withLineage lineage }

namespace Shape

variable {strict : Bool}

theorem compileTable_eq_withLineage (lineage lineage' : Option Lineage) :
    shape.compileTable ⟨strict, lineage'⟩ bindings =
      (CallTable.withLineage · lineage') <$> shape.compileTable ⟨strict, lineage⟩ bindings := by
  unfold compileTable
  split
  · rfl
  · simp only [map_bind, map_pure]
    rfl

/-- The lineage of a mode is kept in the table and read nowhere else. -/
theorem compile_eq_withLineage (lineage lineage' : Option Lineage) :
    shape.compile ⟨strict, lineage'⟩ bindings =
      (Compiled.withLineage · lineage') <$> shape.compile ⟨strict, lineage⟩ bindings := by
  unfold compile
  rw [compileTable_eq_withLineage lineage lineage']
  cases shape.toBase64 with
  | error e => rfl
  | ok text =>
    simp only [map_bind, map_pure, bind_map_left]
    rfl

end Shape

/-- A handle of a compiled shape has that shape. -/
theorem Handle.shape_of_compile (h : shape.compile mode bindings = .ok compiled) (id : Nat) :
    (Handle.mk id (.compiled compiled)).shape = .ok shape := by
  have hread := Shape.ofBase64_eq (Shape.compile_eq_ok h).1
  rw [Handle.shape, Handle.shapeOfBlob, hread]

end TypeAtlas
