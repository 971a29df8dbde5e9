import Mathlib.Tactic

/-!
The replacement of a file: the new content is written to another file, which is then renamed.

A writer can give up at any moment, and a process that stops in between leaves the files as they
are.  Other programs write to other files.

* `FileWriter.step`: the steps of a writer, and of the programs beside it;
* `Cell.step`: the file as a cell that takes a new content at once;
* `Refines`: the file has the content of the cell, and what has been written and what is left to
  write are the next content of the cell;
* `Refines.step`: what the writer does the cell does;
* `Refines.next_of_rename`: only a content that is there in full takes the place of the file;
* `FileWriter.exists_replace`: a writer that nothing stops replaces the file.
-/

namespace Calculus

/-- The contents of the files, and what is left to write of a content. -/
structure FileWriter (κ β : Type) where
  files : κ → Option (List β)
  rest : Option (List β)

inductive FileEvent (κ β : Type) where
  /-- The other file is created, or made empty. -/
  | create (content : List β)
  /-- The next part of the content is written. -/
  | write (n : ℕ)
  /-- All is written, and the other file takes the place of the file. -/
  | rename
  /-- The writer gives up, or its process stops. -/
  | stop
  /-- Another program writes or removes another file. -/
  | other (path : κ) (content : Option (List β))

/-- A file that takes a new content at once, with the next content. -/
structure Cell (β : Type) where
  value : Option (List β)
  next : Option (List β)

variable {κ β : Type}

/-- The steps of a cell. -/
def Cell.step (c : Cell β) : FileEvent κ β → Cell β
  | .create content => { c with next := some content }
  | .rename => ⟨c.next, none⟩
  | .stop => { c with next := none }
  | .write _ | .other _ _ => c

variable [DecidableEq κ] {target temp : κ}

/-- One step of the writer, where it is possible, or of another program. -/
def FileWriter.step (target temp : κ) (w : FileWriter κ β) :
    FileEvent κ β → Option (FileWriter κ β)
  | .create content => match w.rest with
      | none => some ⟨Function.update w.files temp (some []), some content⟩
      | some _ => none
  | .write n => match w.rest with
      | none => none
      | some rest => some ⟨Function.update w.files temp
          ((w.files temp).map fun written => written ++ rest.take n), some (rest.drop n)⟩
  | .rename => match w.rest with
      | some [] =>
          some ⟨Function.update (Function.update w.files target (w.files temp)) temp none, none⟩
      | some (_ :: _) | none => none
  | .stop => some { w with rest := none }
  | .other path content =>
      if path = target ∨ path = temp then none
      else some { w with files := Function.update w.files path content }

lemma FileWriter.step_create {w : FileWriter κ β} (h : w.rest = none) (content : List β) :
    w.step target temp (.create content) =
      some ⟨Function.update w.files temp (some []), some content⟩ := by
  rw [FileWriter.step, h]

lemma FileWriter.step_write {w : FileWriter κ β} {rest : List β} (h : w.rest = some rest) (n : ℕ) :
    w.step target temp (.write n) = some ⟨Function.update w.files temp
      ((w.files temp).map fun written => written ++ rest.take n), some (rest.drop n)⟩ := by
  rw [FileWriter.step, h]

lemma FileWriter.step_rename {w : FileWriter κ β} (h : w.rest = some []) :
    w.step target temp .rename =
      some ⟨Function.update (Function.update w.files target (w.files temp)) temp none, none⟩ := by
  rw [FileWriter.step, h]

/-- The writer does what the cell does. -/
structure Refines (target temp : κ) (c : Cell β) (w : FileWriter κ β) : Prop where
  value : w.files target = c.value
  next : c.next.isSome = w.rest.isSome
  written : ∀ rest, w.rest = some rest →
    ∃ written, w.files temp = some written ∧ c.next = some (written ++ rest)

omit [DecidableEq κ] in
/-- A writer at rest. -/
lemma Refines.idle {w : FileWriter κ β} (h : w.rest = none) :
    Refines target temp ⟨w.files target, none⟩ w := by
  refine ⟨rfl, by rw [h], fun rest hrest => ?_⟩
  rw [h] at hrest
  cases hrest

/-- A renaming comes when nothing is left to write. -/
lemma eq_of_rename {w w' : FileWriter κ β} (hstep : w.step target temp .rename = some w') :
    w.rest = some [] ∧
      w' = ⟨Function.update (Function.update w.files target (w.files temp)) temp none, none⟩ := by
  rw [FileWriter.step] at hstep
  rcases hrest : w.rest with _ | _ | ⟨b, rest⟩
  · rw [hrest] at hstep
    cases hstep
  · rw [hrest] at hstep
    exact ⟨rfl, (Option.some.inj hstep).symm⟩
  · rw [hrest] at hstep
    cases hstep

/-- **One step of the writer is one step of the cell.** -/
lemma Refines.step {c : Cell β} {w w' : FileWriter κ β} {e : FileEvent κ β}
    (hne : target ≠ temp) (h : Refines target temp c w) (hstep : w.step target temp e = some w') :
    Refines target temp (c.step e) w' := by
  cases e with
  | create content =>
      cases hrest : w.rest with
      | some rest =>
          rw [FileWriter.step, hrest] at hstep
          cases hstep
      | none =>
          rw [FileWriter.step, hrest] at hstep
          obtain rfl := Option.some.inj hstep
          refine ⟨(Function.update_of_ne hne _ _).trans h.value, rfl, fun rest hrest' => ?_⟩
          obtain rfl := Option.some.inj hrest'
          exact ⟨[], Function.update_self _ _ _, rfl⟩
  | write n =>
      cases hrest : w.rest with
      | none =>
          rw [FileWriter.step, hrest] at hstep
          cases hstep
      | some rest =>
          rw [FileWriter.step, hrest] at hstep
          obtain rfl := Option.some.inj hstep
          obtain ⟨written, hwritten, hnext⟩ := h.written rest hrest
          refine ⟨(Function.update_of_ne hne _ _).trans h.value, ?_, fun rest' hrest' => ?_⟩
          · rw [Cell.step, hnext]
            rfl
          · obtain rfl := Option.some.inj hrest'
            refine ⟨written ++ rest.take n, ?_, ?_⟩
            · exact (Function.update_self _ _ _).trans (by rw [hwritten, Option.map_some])
            · rw [Cell.step, hnext, List.append_assoc, List.take_append_drop]
  | rename =>
      obtain ⟨hrest, rfl⟩ := eq_of_rename hstep
      obtain ⟨written, hwritten, hnext⟩ := h.written [] hrest
      refine ⟨?_, rfl, fun rest hrest' => by cases hrest'⟩
      calc Function.update (Function.update w.files target (w.files temp)) temp none target
          = Function.update w.files target (w.files temp) target := Function.update_of_ne hne _ _
        _ = w.files temp := Function.update_self _ _ _
        _ = c.next := by rw [hwritten, hnext, List.append_nil]
  | stop =>
      obtain rfl := Option.some.inj hstep
      exact ⟨h.value, rfl, fun rest hrest => by cases hrest⟩
  | other path content =>
      rw [FileWriter.step] at hstep
      split_ifs at hstep with hpath
      obtain rfl := Option.some.inj hstep
      obtain ⟨htarget, htemp⟩ := not_or.mp hpath
      refine ⟨(Function.update_of_ne (Ne.symm htarget) _ _).trans h.value, h.next, ?_⟩
      intro rest hrest
      obtain ⟨written, hwritten, hnext⟩ := h.written rest hrest
      exact ⟨written, (Function.update_of_ne (Ne.symm htemp) _ _).trans hwritten, hnext⟩

/-- A renaming has a content to give to the cell. -/
lemma Refines.next_of_rename {c : Cell β} {w w' : FileWriter κ β} (h : Refines target temp c w)
    (hstep : w.step target temp .rename = some w') : ∃ content, c.next = some content := by
  obtain ⟨written, -, hnext⟩ := h.written [] (eq_of_rename hstep).1
  exact ⟨_, hnext⟩

/-- **A writer that nothing stops replaces the file.** -/
lemma FileWriter.exists_replace {w : FileWriter κ β} (hne : target ≠ temp) (h : w.rest = none)
    (content : List β) :
    ∃ w₁ w₂ w₃, w.step target temp (.create content) = some w₁ ∧
      w₁.step target temp (.write content.length) = some w₂ ∧
      w₂.step target temp .rename = some w₃ ∧ w₃.rest = none ∧
      w₃.files target = some content := by
  set w₁ : FileWriter κ β := ⟨Function.update w.files temp (some []), some content⟩
  set w₂ : FileWriter κ β := ⟨Function.update w₁.files temp
    ((w₁.files temp).map fun written => written ++ content.take content.length), some []⟩ with hw₂
  have hcreate : w.step target temp (.create content) = some w₁ := step_create h content
  have hwrite : w₁.step target temp (.write content.length) = some w₂ := by
    rw [step_write rfl, hw₂, List.drop_length]
  obtain ⟨w₃, hrename, hidle⟩ : ∃ w₃, w₂.step target temp .rename = some w₃ ∧ w₃.rest = none :=
    ⟨_, step_rename rfl, rfl⟩
  have hcell := (((Refines.idle h).step hne hcreate).step hne hwrite).step hne hrename
  exact ⟨w₁, w₂, w₃, hcreate, hwrite, hrename, hidle, hcell.value⟩

end Calculus
