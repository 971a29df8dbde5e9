import Fcore.Calculus.Table

/-!
A text read line by line, and a line read field by field.

* `lines`: the lines of a text, as a buffered reader gives them;
* `lines_append`: what is behind a line feed is read on its own;
* `lines_records`: a text of records that each end with a line feed has the lines of its
  records, whatever else is in them;
* `exists_splitOn_append`: the first piece of a text begins with what stands before every
  separator;
* `Table.record`, `Table.isSome_get_foldl_record`: what a pass over the lines has recorded
  stays recorded.
-/

namespace Calculus

/-- A line without a carriage return at its end. -/
def dropCr (line : List Char) : List Char :=
  if line.getLast? = some '\r' then line.dropLast else line

/-- The lines of a text: a line ends with a line feed, with or without a carriage return
before it, or with the text. -/
def lines (text : List Char) : List (List Char) :=
  (text.splitOn '\n').dropLast.map dropCr ++ (text.splitOn '\n').getLast?.toList.filter (· ≠ [])

/-- A carriage return at the end of a line is behind everything that is not one. -/
lemma exists_dropCr_append (head : List Char) {c : Char} (hc : c ≠ '\r') (rest : List Char) :
    ∃ rest', dropCr (head ++ c :: rest) = head ++ c :: rest' := by
  rw [dropCr]
  split_ifs with hlast
  · have hrest : rest ≠ [] := by
      rintro rfl
      simp [hc] at hlast
    refine ⟨rest.dropLast, ?_⟩
    rw [List.dropLast_append_of_ne_nil (List.cons_ne_nil c rest),
      List.dropLast_cons_of_ne_nil hrest]
  · exact ⟨rest, rfl⟩

/-- What is behind a line feed is read on its own. -/
lemma lines_append (a b : List Char) :
    lines (a ++ '\n' :: b) = (a.splitOn '\n').map dropCr ++ lines b := by
  rw [lines, lines, List.splitOn_append_cons_self,
    List.dropLast_append_of_ne_nil (List.splitOn_ne_nil '\n' b), List.map_append,
    List.getLast?_append_of_ne_nil _ (List.splitOn_ne_nil '\n' b), List.append_assoc]

/-- A text of records that each end with a line feed has the lines of its records. -/
lemma lines_records (records : List (List Char)) :
    lines (records.flatMap (· ++ ['\n'])) =
      records.flatMap fun record => (record.splitOn '\n').map dropCr := by
  induction records with
  | nil => simp [lines]
  | cons record records ih =>
      rw [List.flatMap_cons, List.append_assoc, List.singleton_append, lines_append, ih,
        List.flatMap_cons]

/-- The first piece of a text begins with what stands before every separator. -/
lemma exists_splitOn_append {α : Type} [DecidableEq α] {sep : α} {head : List α} (h : sep ∉ head)
    (rest : List α) :
    ∃ rest' pieces, (head ++ rest).splitOn sep = (head ++ rest') :: pieces := by
  induction head with
  | nil =>
      obtain ⟨piece, pieces, hpieces⟩ :=
        List.exists_cons_of_ne_nil (List.splitOn_ne_nil sep rest)
      exact ⟨piece, pieces, hpieces⟩
  | cons x head ih =>
      rw [List.mem_cons, not_or] at h
      obtain ⟨rest', pieces, hpieces⟩ := ih h.2
      refine ⟨rest', pieces, ?_⟩
      rw [List.cons_append, List.splitOn_cons_eq_if_modifyHead, if_neg, hpieces,
        List.modifyHead_cons, List.cons_append]
      simpa using Ne.symm h.1

/-! ### Recording -/

namespace Table

variable {κ α β : Type} [DecidableEq κ]

/-- The table with an entry recorded, if there is one. -/
def record (t : Table κ α) : Option (κ × α) → Table κ α
  | some (k, v) => t.put k v
  | none => t

/-- What is recorded stays recorded. -/
lemma isSome_get_record {t : Table κ α} {k : κ} (h : (t.get k).isSome) (e : Option (κ × α)) :
    ((t.record e).get k).isSome := by
  rcases e with _ | ⟨k', v⟩
  · exact h
  · rw [record, get_put]
    split_ifs
    · rfl
    · exact h

/-- After a pass every entry that was met is there. -/
lemma isSome_get_foldl_record {f : β → Option (κ × α)} {l : List β} {t : Table κ α} {k : κ}
    (h : (t.get k).isSome ∨ ∃ x ∈ l, ∃ v, f x = some (k, v)) :
    ((l.foldl (fun t x => t.record (f x)) t).get k).isSome := by
  induction l generalizing t with
  | nil =>
      rcases h with h | ⟨x, hx, -⟩
      · exact h
      · cases hx
  | cons y l ih =>
      rw [List.foldl_cons]
      refine ih ?_
      rcases h with h | ⟨x, hx, v, hv⟩
      · exact .inl (isSome_get_record h (f y))
      · rcases List.mem_cons.mp hx with rfl | hx
        · rw [hv, record, get_put_self]
          exact .inl rfl
        · exact .inr ⟨x, hx, v, hv⟩

end Table

end Calculus
