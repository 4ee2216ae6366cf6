/-
  Reading signatures.

  A signature is a text in which nothing marks a parenthesis or a comma that belongs to a name, so
  two members can have one signature without having the same parameters.  What can be told from the
  text alone:

  * `joinSignature_left_inj`: with the same parameters, the name;
  * `joinSignature_inj_of_plain`: if neither the name nor the parameters of a member contain a
    parenthesis, its name and the text of its parameters;
  * `eq_nil_or_singleton_of_join`: from a text without a comma, the parameters, up to a single one
    without a name.
-/
import TypeAtlas.Name.Basic

namespace TypeAtlas.Name

variable {name name' : String} {parameters parameters' : List String}

theorem toList_joinSignature (name : String) (parameters : List String) :
    (joinSignature name parameters).toList =
      name.toList ++ '(' :: ((String.intercalate "," parameters).toList ++ [')']) := by
  simp [joinSignature, List.append_assoc]

theorem joinSignature_left_inj :
    joinSignature name parameters = joinSignature name' parameters ↔ name = name' := by
  refine ⟨fun h => ?_, fun h => h ▸ rfl⟩
  have hchars := congrArg String.toList h
  rw [toList_joinSignature, toList_joinSignature] at hchars
  exact String.toList_inj.1 (List.append_cancel_right hchars)

/-- Of two splittings of a list at an element, those are the same in which neither the part
    before it nor the part behind it contains it. -/
theorem eq_of_append_cons_eq {α : Type} {x : α} {before before' after after' : List α}
    (h : before ++ x :: after = before' ++ x :: after') (hbefore : x ∉ before')
    (hafter : x ∉ after') : before = before' ∧ after = after' := by
  rcases List.append_eq_append_iff.1 h with ⟨more, hmore, hrest⟩ | ⟨more, hmore, hrest⟩
  · cases more with
    | nil => simp_all
    | cons y more =>
      obtain ⟨rfl, -⟩ := List.cons.inj hrest
      exact absurd (hmore ▸ List.mem_append_right _ List.mem_cons_self) hbefore
  · cases more with
    | nil => simp_all
    | cons y more =>
      obtain ⟨rfl, htail⟩ := List.cons.inj hrest
      exact absurd (htail ▸ List.mem_append_right _ List.mem_cons_self) hafter

/-- The parts of a signature without other parentheses can be told from its text. -/
theorem joinSignature_inj_of_plain
    (h : joinSignature name parameters = joinSignature name' parameters')
    (hname : '(' ∉ name'.toList) (hparameters : '(' ∉ (String.intercalate "," parameters').toList) :
    name = name' ∧ String.intercalate "," parameters = String.intercalate "," parameters' := by
  have hchars := congrArg String.toList h
  rw [toList_joinSignature, toList_joinSignature] at hchars
  obtain ⟨hsame, hjoin⟩ := eq_of_append_cons_eq hchars hname (by simpa using hparameters)
  exact ⟨String.toList_inj.1 hsame, String.toList_inj.1 (List.append_cancel_right hjoin)⟩

/-- A text without a comma is that of one parameter or, if it is empty, of none. -/
theorem eq_nil_or_singleton_of_join {text : String} (h : String.intercalate "," parameters = text)
    (hcomma : ',' ∉ text.toList) : parameters = [] ∧ text = "" ∨ parameters = [text] := by
  match parameters with
  | [] => exact Or.inl ⟨rfl, by simpa using h.symm⟩
  | [parameter] => exact Or.inr (by simpa using h)
  | first :: second :: rest =>
    rw [← h] at hcomma
    simp at hcomma

end TypeAtlas.Name
