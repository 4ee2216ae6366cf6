/-
  The seeds that a scan finds.

  Annotations of four types make seeds.  Each occurrence of one lists texts, in a list or
  as a single value, that are to name directives; two of the types list the names of
  classes besides.  A scan takes every occurrence for itself.

  * `Directive.NamedBy`: what names a directive, with anything before a last dot
    (`Directive.ofText?_eq_some_iff`);
  * `Annotation.listedTexts`: the texts that an occurrence lists, `Annotation.named` and
    `Annotation.listedClasses`: the directives and the classes that they stand for;
  * `Annotation.directives_eq_ok_iff`: when one occurrence is read;
  * `Seed.scan_eq_ok_iff`: when a scan succeeds, and what it finds then.
-/
import TypeAtlas.Build.Seed
import TypeAtlas.Proofs.Build.Catalog

namespace TypeAtlas

/-! ## Behind the last dot -/

namespace Name

theorem eq_afterLast_or (p : Char → Bool) (cs : List Char) :
    cs = afterLast p cs ∨ ∃ front c, p c = true ∧ cs = front ++ c :: afterLast p cs := by
  have hsplit : cs = (cs.reverse.dropWhile fun c => !p c).reverse ++ afterLast p cs := by
    rw [afterLast, ← List.reverse_append, List.takeWhile_append_dropWhile, List.reverse_reverse]
  cases hrest : cs.reverse.dropWhile fun c => !p c with
  | nil =>
    rw [hrest] at hsplit
    exact Or.inl hsplit
  | cons c rest =>
    rw [hrest, List.reverse_cons, List.append_assoc] at hsplit
    have hc := List.head_dropWhile_not (fun c => !p c) (l := cs.reverse) (by simp [hrest])
    simp only [hrest, List.head_cons, Bool.not_eq_false'] at hc
    exact Or.inr ⟨rest.reverse, c, hc, hsplit⟩

theorem eq_lastPart_or (text : String) :
    text = lastPart text ∨ ∃ qualifier, text = qualifier ++ "." ++ lastPart text := by
  simp only [← String.toList_inj, String.toList_append, lastPart, String.toList_ofList]
  rcases eq_afterLast_or (· == '.') text.toList with hwhole | ⟨front, c, hc, hsplit⟩
  · exact Or.inl hwhole
  · obtain rfl := eq_of_beq hc
    refine Or.inr ⟨.ofList front, ?_⟩
    rw [String.toList_ofList, List.append_assoc]
    exact hsplit

theorem lastPart_append (qualifier text : String) :
    lastPart (qualifier ++ "." ++ text) = lastPart text := by
  have hchars : (qualifier ++ "." ++ text).toList = qualifier.toList ++ '.' :: text.toList := by
    simp [String.toList_append]
  rw [lastPart, hchars, lastPart, afterLast_append_cons (by rfl)]

end Name

/-! ## Directives -/

namespace Directive

variable {text : String} {directive : Directive} {texts : List String}
  {directives : List Directive}

/-- A text names a directive by itself or behind its last dot. -/
def NamedBy (directive : Directive) (text : String) : Prop :=
  text = directive.text ∨ ∃ qualifier, text = qualifier ++ "." ++ directive.text

theorem lastPart_text (directive : Directive) :
    Name.lastPart directive.text = directive.text := by
  cases directive <;> decide

theorem ofText?_eq_some_iff : ofText? text = some directive ↔ directive.NamedBy text := by
  constructor
  · intro h
    have hlast : directive.text = Name.lastPart text := by simpa using List.find?_some h
    rw [NamedBy, hlast]
    exact Name.eq_lastPart_or text
  · intro h
    have hlast : Name.lastPart text = directive.text := by
      rcases h with rfl | ⟨qualifier, rfl⟩
      · exact lastPart_text directive
      · rw [Name.lastPart_append, lastPart_text]
    rw [ofText?, hlast, ← lastPart_text directive]
    exact ofText?_text directive

theorem parse_eq_ok_iff : parse text = .ok directive ↔ ofText? text = some directive := by
  rw [parse]
  cases ofText? text <;> simp

/-- Texts are read if each of them names a directive. -/
theorem mapM_parse_eq_ok_iff :
    texts.mapM parse = .ok directives ↔
      (∀ text ∈ texts, ∃ directive : Directive, directive.NamedBy text) ∧
        directives = texts.filterMap ofText? := by
  induction texts generalizing directives with
  | nil =>
    rw [List.mapM_nil, pure_eq_ok, List.filterMap_nil, eq_comm]
    exact (and_iff_right fun _ hmem => absurd hmem List.not_mem_nil).symm
  | cons text rest ih =>
    simp only [List.mapM_cons, bind_eq_ok, pure_eq_ok, parse_eq_ok_iff, ih, List.forall_mem_cons]
    constructor
    · rintro ⟨directive, hfirst, -, ⟨hrest, rfl⟩, rfl⟩
      exact ⟨⟨⟨directive, ofText?_eq_some_iff.1 hfirst⟩, hrest⟩,
        (List.filterMap_cons_some hfirst).symm⟩
    · rintro ⟨⟨⟨directive, hnamed⟩, hrest⟩, rfl⟩
      have hfirst := ofText?_eq_some_iff.2 hnamed
      exact ⟨directive, hfirst, _, ⟨hrest, rfl⟩, (List.filterMap_cons_some hfirst).symm⟩

end Directive

/-! ## One occurrence -/

/-- The texts that a value lists: itself or its items, where they are texts. -/
def AnnotationValue.listedTexts : AnnotationValue → List String
  | .text s | .other s => [s]
  | .list items => items.flatMap fun
    | .text s | .other s => [s]
    | _ => []
  | _ => []

namespace Annotation

variable {note : Annotation} {set : DirectiveSet}

/-- The texts that a property lists. -/
def listedTexts (note : Annotation) (property : String) : List String :=
  (note.property? property).toList.flatMap AnnotationValue.listedTexts

/-- The directives that are named. -/
def named (note : Annotation) : DirectiveSet :=
  .ofList ((note.listedTexts "including").filterMap Directive.ofText?)

/-- The classes that are listed, without those whose name is left empty. -/
def listedClasses (note : Annotation) : List String :=
  ((note.listedTexts "classes").map listedClass).filter (· ≠ "")

/-- Every text that is to name a directive does. -/
def Readable (note : Annotation) : Prop :=
  ∀ text ∈ note.listedTexts "including", ∃ directive : Directive, directive.NamedBy text

theorem textsOf_eq (note : Annotation) (property : String) :
    note.textsOf property = note.listedTexts property := by
  have hitem : ∀ item : AnnotationValue, item.asText?.toList =
      match item with
      | .text s | .other s => [s]
      | _ => [] := by
    intro item
    cases item <;> rfl
  rw [textsOf, listedTexts]
  cases note.property? property with
  | none => rfl
  | some value =>
    rw [Option.toList_some, List.flatMap_singleton]
    cases value with
    | list items =>
      show items.filterMap AnnotationValue.asText? = items.flatMap _
      rw [List.filterMap_eq_flatMap_toList]
      exact congrArg items.flatMap (funext hitem)
    | null | text | flag | int | long | float | double | other => rfl

theorem mem_named {directive : Directive} :
    directive ∈ note.named ↔
      ∃ text ∈ note.listedTexts "including", directive.NamedBy text := by
  simp only [named, DirectiveSet.mem_ofList, List.mem_filterMap, Directive.ofText?_eq_some_iff]

theorem classes_eq (note : Annotation) : note.classes = note.listedClasses := by
  rw [classes, textsOf_eq, listedClasses]

/-- **The directives of an occurrence are those that it names**, if each of its texts names
    one. -/
theorem directives_eq_ok_iff : note.directives = .ok set ↔ note.Readable ∧ set = note.named := by
  rw [directives, textsOf_eq, map_eq_ok]
  simp only [Directive.mapM_parse_eq_ok_iff]
  constructor
  · rintro ⟨-, ⟨hreadable, rfl⟩, rfl⟩
    exact ⟨hreadable, rfl⟩
  · rintro ⟨hreadable, rfl⟩
    exact ⟨_, ⟨hreadable, rfl⟩, rfl⟩

/-- What is made of the directives of an occurrence is made of those that it names. -/
theorem bind_directives_eq_ok_iff {α : Type} {f : DirectiveSet → α} {made : α} :
    (note.directives >>= fun directives => pure (f directives)) = .ok made ↔
      note.Readable ∧ made = f note.named := by
  simp only [bind_eq_ok, pure_eq_ok, directives_eq_ok_iff]
  constructor
  · rintro ⟨-, ⟨hreadable, rfl⟩, rfl⟩
    exact ⟨hreadable, rfl⟩
  · rintro ⟨hreadable, rfl⟩
    exact ⟨_, ⟨hreadable, rfl⟩, rfl⟩

end Annotation

/-- What is left of a class text: the name before `.class`, or all of it. -/
theorem listedClass_eq_iff {text name : String} :
    listedClass text = name ↔
      text = name ++ ".class" ∨ (∀ other, text ≠ other ++ ".class") ∧ text = name := by
  have hsplit : ∀ other, text = other ++ ".class" ↔
      Text.before? ".class".toList text.toList = some other.toList := fun other => by
    rw [Text.before?_eq_some_iff, ← String.toList_inj, String.toList_append]
  simp only [ne_eq, hsplit, listedClass]
  cases Text.before? ".class".toList text.toList with
  | none => simp
  | some front =>
    have hfront : ∀ other : String, front = other.toList ↔ String.ofList front = other :=
      fun other => by rw [← String.toList_inj, String.toList_ofList]
    simp only [Option.some.injEq, hfront]
    refine ⟨Or.inl, ?_⟩
    rintro (h | ⟨hnone, -⟩)
    · exact h
    · exact absurd rfl (hnone _)

/-! ## All occurrences -/

namespace Seed

variable {catalog : Catalog} {marker : String} {role : Role} {seeds : List Seed}

theorem flatMap_filter_of_nil {α β : Type} {p : α → Bool} {f : α → List β}
    (h : ∀ a, p a = false → f a = []) (items : List α) :
    (items.filter p).flatMap f = items.flatMap f := by
  induction items with
  | nil => rfl
  | cons a rest ih =>
    cases hp : p a with
    | true => rw [List.filter_cons_of_pos hp, List.flatMap_cons, List.flatMap_cons, ih]
    | false => rw [List.filter_cons_of_neg (by simp [hp]), List.flatMap_cons, h a hp, ih]; rfl

/-- Every occurrence, in the order of the declarations and of the annotations on each. -/
theorem occurrences_eq (catalog : Catalog) (marker : String) :
    occurrences catalog marker =
      catalog.decls.toList.flatMap fun decl =>
        (decl.annotationsOf marker).map fun note => (decl, note) := by
  have hnone : ∀ entry : Nat × Declaration,
      (entry.2.annotations.any fun note => note.typeName == marker) = false →
      ((entry.2.annotationsOf marker).map fun note => (entry.2, note)) = [] := by
    intro entry hany
    rw [List.map_eq_nil_iff]
    simpa [Declaration.annotationsOf] using hany
  rw [occurrences, Catalog.annotatedWith, flatMap_filter_of_nil hnone, ← Catalog.map_snd_toList,
    List.flatMap_map]

/-- Every text at every occurrence of a marker names a directive. -/
def Readable (catalog : Catalog) (marker : String) : Prop :=
  ∀ decl ∈ catalog.decls.toList, ∀ note ∈ decl.annotationsOf marker, note.Readable

theorem readable_iff :
    Readable catalog marker ↔ ∀ occurrence ∈ occurrences catalog marker, occurrence.2.Readable := by
  rw [occurrences_eq]
  simp only [Readable, List.mem_flatMap, List.mem_map]
  constructor
  · rintro h _ ⟨decl, hdecl, note, hnote, rfl⟩
    exact h decl hdecl note hnote
  · intro h decl hdecl note hnote
    exact h (decl, note) ⟨decl, hdecl, note, hnote, rfl⟩

/-- One seed for each occurrence of a marker. -/
theorem direct_eq_ok_iff :
    direct catalog role marker = .ok seeds ↔
      Readable catalog marker ∧
        seeds = catalog.decls.toList.flatMap fun decl =>
          (decl.annotationsOf marker).map fun note => ⟨decl.name, role, note.named⟩ := by
  rw [direct, mapM_eq_ok_iff_map fun _ _ => Annotation.bind_directives_eq_ok_iff, ← readable_iff,
    occurrences_eq, List.map_flatMap]
  simp only [List.map_map, Function.comp_def]

/-- One seed for each class that an occurrence of a marker lists. -/
theorem listed_eq_ok_iff :
    listed catalog role marker = .ok seeds ↔
      Readable catalog marker ∧
        seeds = catalog.decls.toList.flatMap fun decl =>
          (decl.annotationsOf marker).flatMap fun note =>
            note.listedClasses.map fun name => ⟨name, role, note.named⟩ := by
  have hflat : ∀ f : Declaration × Annotation → List Seed,
      ((occurrences catalog marker).map f).flatten =
        catalog.decls.toList.flatMap fun decl =>
          (decl.annotationsOf marker).flatMap fun note => f (decl, note) := by
    intro f
    rw [← List.flatMap_def, occurrences_eq, List.flatMap_assoc]
    simp only [List.flatMap_map]
  rw [listed, map_eq_ok]
  simp only [readable_iff, Annotation.classes_eq,
    mapM_eq_ok_iff_map fun _ _ => Annotation.bind_directives_eq_ok_iff]
  constructor
  · rintro ⟨-, ⟨hreadable, rfl⟩, rfl⟩
    exact ⟨hreadable, hflat _⟩
  · rintro ⟨hreadable, rfl⟩
    exact ⟨_, ⟨hreadable, rfl⟩, hflat _⟩

/-- **What a scan finds.**  It succeeds if and only if each text that is listed at an occurrence of
    one of the four markers names a directive.  Then there is one seed for each occurrence of a
    marker of the type itself and one for each class listed at an occurrence of a marker that lists
    classes, with the directives that this occurrence names. -/
theorem scan_eq_ok_iff (markers : Markers) (catalog : Catalog) (seeds : List Seed) :
    (scan markers catalog = .ok seeds ↔
      (∀ marker ∈ [markers.reflective, markers.proxyTarget, markers.reflectiveInclude,
          markers.proxyTargetInclude],
        ∀ decl ∈ catalog.decls.toList, ∀ note ∈ decl.annotations, note.typeName = marker →
          ∀ text ∈ note.listedTexts "including", ∃ directive : Directive, directive.NamedBy text) ∧
      seeds =
        (catalog.decls.toList.flatMap fun decl =>
          (decl.annotationsOf markers.reflective).map fun note =>
            ⟨decl.name, .reflective, note.named⟩) ++
        (catalog.decls.toList.flatMap fun decl =>
          (decl.annotationsOf markers.proxyTarget).map fun note =>
            ⟨decl.name, .proxy, note.named⟩) ++
        (catalog.decls.toList.flatMap fun decl =>
          (decl.annotationsOf markers.reflectiveInclude).flatMap fun note =>
            note.listedClasses.map fun name => ⟨name, .reflective, note.named⟩) ++
        (catalog.decls.toList.flatMap fun decl =>
          (decl.annotationsOf markers.proxyTargetInclude).flatMap fun note =>
            note.listedClasses.map fun name => ⟨name, .proxy, note.named⟩)) ∧
    (∀ (note : Annotation) (directive : Directive), directive ∈ note.named ↔
      ∃ text ∈ note.listedTexts "including", directive.NamedBy text) ∧
    (∀ note : Annotation, note.listedClasses =
      ((note.listedTexts "classes").map listedClass).filter (· ≠ "")) ∧
    ∀ text name, listedClass text = name ↔
      text = name ++ ".class" ∨ (∀ other, text ≠ other ++ ".class") ∧ text = name := by
  refine ⟨?_, fun _ _ => Annotation.mem_named, fun _ => rfl, fun _ _ => listedClass_eq_iff⟩
  have hreadable : ∀ marker, (∀ decl ∈ catalog.decls.toList, ∀ note ∈ decl.annotations,
      note.typeName = marker → note.Readable) ↔ Readable catalog marker := by
    intro marker
    simp only [Readable, Declaration.annotationsOf, List.mem_filter, beq_iff_eq, and_imp]
  unfold Annotation.Readable at hreadable
  simp only [scan, bind_eq_ok, pure_eq_ok, direct_eq_ok_iff, listed_eq_ok_iff, hreadable,
    List.forall_mem_cons, List.not_mem_nil, false_implies, implies_true, and_true]
  constructor
  · rintro ⟨-, ⟨hfirst, rfl⟩, -, ⟨hsecond, rfl⟩, -, ⟨hthird, rfl⟩, -, ⟨hfourth, rfl⟩, rfl⟩
    exact ⟨⟨hfirst, hsecond, hthird, hfourth⟩, rfl⟩
  · rintro ⟨⟨hfirst, hsecond, hthird, hfourth⟩, rfl⟩
    exact ⟨_, ⟨hfirst, rfl⟩, _, ⟨hsecond, rfl⟩, _, ⟨hthird, rfl⟩, _, ⟨hfourth, rfl⟩, rfl⟩

/-- An annotation that names one directive, as a single value. -/
def single : Annotation :=
  Annotation.ofType "tech.kaffa.portrait.Reflective" |>.withProperty "including"
    (.other "Includes.ALL_SUBTYPES")

/-- An annotation that lists a class, next to values that are no class, and a directive. -/
def mixed : Annotation :=
  Annotation.ofType "tech.kaffa.portrait.Reflective$Include" |>.withProperty "classes"
    (.list [.text "b.Shape.class", .flag true, .text ".class"]) |>.withProperty "including"
    (.list [.text "PUBLIC_API", .null])

/-- A class that is asked for twice and lists another one. -/
def crowded : Declaration :=
  { Declaration.ofName "a.Crowded" .cls with
    annotations := [single, mixed, Annotation.ofType "tech.kaffa.portrait.Reflective"] }

/-- Nothing goes from one occurrence to another. -/
theorem scan_crowded :
    scan {} (Catalog.empty.push crowded) = .ok
      [⟨"a.Crowded", .reflective, .ofList [.allSubtypes]⟩, ⟨"a.Crowded", .reflective, .empty⟩,
        ⟨"b.Shape", .reflective, .ofList [.publicApi]⟩] := by
  have hfound : ∀ note ∈ crowded.annotations, ∀ text ∈ note.listedTexts "including",
      (Directive.ofText? text).isSome = true := by decide +kernel
  refine (scan_eq_ok_iff {} _ _).1.2 ⟨?_, by decide +kernel⟩
  intro _ _ decl hdecl note hnote _ text htext
  obtain rfl : decl = crowded := List.mem_singleton.1 hdecl
  obtain ⟨directive, hdirective⟩ := Option.isSome_iff_exists.1 (hfound note hnote text htext)
  exact ⟨directive, Directive.ofText?_eq_some_iff.1 hdirective⟩

end Seed

end TypeAtlas
