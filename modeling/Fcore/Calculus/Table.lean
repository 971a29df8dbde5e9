import Mathlib.Tactic
import Mathlib.Data.List.AList
import Mathlib.Data.List.Sort

/-!
Finite tables: hash maps and database tables with a primary key.

A table is a list of entries with pairwise different keys (`AList`).  Nothing
that a program can see depends on the order of the entries except an iteration,
and `Table.iter` takes that order from outside: every order of the entries is
an iteration.

* `get`, `put`, `drop`, `change`, `vacant`: lookup, insertion, removal, update in
  place and insertion at a vacant key;
* `get_put`, `get_drop`, `get_change`, `get_vacant`: what a lookup sees after
  each of them;
* `mem_iter`, `iter_keys_nodup`: an iteration visits every entry exactly once;
* `size_put_of_none`, `size_change`: the number of entries;
* `load`, `get_load`: a table filled from a list of keyed rows, the first row of
  a key winning;
* `retain`, `get_retain`: a pass over all entries that rewrites or drops each of
  them; `isEmpty_iff`;
* `Preserves`: a table that has the entries of another one, up to a relation.
-/

namespace Calculus

/-- A finite map from keys to values. -/
abbrev Table (κ α : Type) := AList fun _ : κ => α

namespace Table

variable {κ α β : Type} [DecidableEq κ]

/-- The value at a key. -/
def get (t : Table κ α) (k : κ) : Option α := AList.lookup k t

/-- Insertion; an existing value is replaced. -/
def put (t : Table κ α) (k : κ) (v : α) : Table κ α := AList.insert k v t

/-- Removal of a key. -/
def drop (t : Table κ α) (k : κ) : Table κ α := AList.erase k t

/-- Update in place of the value at a key, if there is one. -/
def change (t : Table κ α) (k : κ) (f : α → α) : Table κ α :=
  match t.get k with
  | some v => t.put k (f v)
  | none => t

/-- Insertion at a vacant key; an existing value stays. -/
def vacant (t : Table κ α) (k : κ) (v : α) : Table κ α :=
  match t.get k with
  | some _ => t
  | none => t.put k v

/-- The number of entries. -/
def size (t : Table κ α) : ℕ := t.entries.length

/-- The entries in an order of iteration: those of the keys in `order` first, in
that order. -/
def iter (t : Table κ α) (order : List κ) : List (κ × α) :=
  (t.entries.map fun e => (e.1, e.2)).insertionSort fun a b => order.idxOf a.1 ≤ order.idxOf b.1

/-- A pass over all entries: `f` gives the new value of an entry, or drops it. -/
def retain (t : Table κ α) (f : κ → α → Option α) : Table κ α where
  entries := t.entries.filterMap fun e => (f e.1 e.2).map (Sigma.mk e.1)
  nodupKeys := by
    rw [List.nodupKeys_iff_pairwise]
    refine (List.nodupKeys_iff_pairwise.mp t.nodupKeys).filterMap _ ?_
    intro e e' hne x hx x' hx'
    obtain ⟨v, -, rfl⟩ := Option.map_eq_some_iff.mp hx
    obtain ⟨v', -, rfl⟩ := Option.map_eq_some_iff.mp hx'
    exact hne

/-- A table without entries. -/
def isEmpty (t : Table κ α) : Bool := t.entries.isEmpty

/-- The table of a list of keyed rows; the first row of a key wins. -/
def load (rows : List (κ × α)) : Table κ α :=
  rows.foldl (fun t r => t.vacant r.1 r.2) ∅

/-! ### Lookups -/

@[simp] lemma get_empty (k : κ) : get (∅ : Table κ α) k = none := rfl

lemma get_put (t : Table κ α) (k k' : κ) (v : α) :
    (t.put k v).get k' = if k' = k then some v else t.get k' := by
  split_ifs with h
  · subst h
    exact AList.lookup_insert t
  · exact AList.lookup_insert_ne h

@[simp] lemma get_put_self (t : Table κ α) (k : κ) (v : α) : (t.put k v).get k = some v := by
  rw [get_put, if_pos rfl]

lemma get_put_of_ne (t : Table κ α) {k k' : κ} (v : α) (h : k' ≠ k) :
    (t.put k v).get k' = t.get k' := by
  rw [get_put, if_neg h]

lemma get_drop (t : Table κ α) (k k' : κ) :
    (t.drop k).get k' = if k' = k then none else t.get k' := by
  split_ifs with h
  · subst h
    exact AList.lookup_erase k' t
  · exact AList.lookup_erase_ne h

lemma get_change (t : Table κ α) (k k' : κ) (f : α → α) :
    (t.change k f).get k' = if k' = k then (t.get k).map f else t.get k' := by
  rw [change]
  cases hk : t.get k with
  | some v => rw [get_put, Option.map_some]
  | none =>
      split_ifs with h
      · rw [h, hk, Option.map_none]
      · rfl

@[simp] lemma get_change_self (t : Table κ α) (k : κ) (f : α → α) :
    (t.change k f).get k = (t.get k).map f := by
  rw [get_change, if_pos rfl]

/-- A change keeps what is read off all entries exactly if it keeps it for the one it changes. -/
lemma map_get_change_iff {β : Type} {t : Table κ α} {k : κ} {f : α → α} {g : α → β} :
    (∀ k', ((t.change k f).get k').map g = (t.get k').map g) ↔ ∀ v ∈ t.get k, g (f v) = g v := by
  constructor
  · intro h v hv
    have hk := h k
    rwa [get_change_self, hv, Option.map_some, Option.map_some, Option.map_some,
      Option.some.injEq] at hk
  · intro h k'
    rw [get_change]
    split_ifs with hk
    · rw [hk]
      cases hv : t.get k with
      | none => rfl
      | some v => rw [Option.map_some, Option.map_some, Option.map_some, h v hv]
    · rfl

/-- To overwrite an entry is to change it. -/
lemma put_eq_change {t : Table κ α} {k : κ} {u : α} (h : t.get k = some u) (v : α) :
    t.put k v = t.change k fun _ => v := by
  rw [change, h]

lemma get_vacant (t : Table κ α) (k k' : κ) (v : α) :
    (t.vacant k v).get k' = if k' = k then some ((t.get k).getD v) else t.get k' := by
  rw [vacant]
  cases hk : t.get k with
  | some u =>
      split_ifs with h
      · rw [h, hk, Option.getD_some]
      · rfl
  | none => rw [get_put, Option.getD_none]

/-- A value found after an insertion at a vacant key was there before, or is the
new one at a key that was vacant. -/
lemma get_vacant_eq_some {t : Table κ α} {k k' : κ} {v u : α} :
    (t.vacant k v).get k' = some u ↔
      t.get k' = some u ∨ k' = k ∧ t.get k = none ∧ u = v := by
  rw [get_vacant]
  split_ifs with h
  · subst h
    cases t.get k' with
    | some w => simp
    | none => simp [eq_comm]
  · simp [h]

/-- An entry of the list is what a lookup finds. -/
lemma mem_entries {t : Table κ α} {k : κ} {v : α} :
    (⟨k, v⟩ : Σ _ : κ, α) ∈ t.entries ↔ t.get k = some v := by
  rw [← Option.mem_def]
  exact (AList.mem_lookup_iff (β := fun _ => α)).symm

/-- What a lookup sees after a pass: what the pass made of the entry. -/
lemma get_retain (t : Table κ α) (f : κ → α → Option α) (k : κ) :
    (t.retain f).get k = (t.get k).bind (f k) := by
  refine Option.ext fun v => ?_
  rw [← mem_entries, Option.bind_eq_some_iff, retain]
  simp only [List.mem_filterMap, Option.map_eq_some_iff]
  constructor
  · rintro ⟨⟨k', u⟩, hmem, v', hv, heq⟩
    cases heq
    exact ⟨u, mem_entries.mp hmem, hv⟩
  · rintro ⟨u, hu, hv⟩
    exact ⟨⟨k, u⟩, mem_entries.mpr hu, v, hv, rfl⟩

lemma isEmpty_iff {t : Table κ α} : t.isEmpty = true ↔ ∀ k, t.get k = none := by
  rw [isEmpty, List.isEmpty_iff, List.eq_nil_iff_forall_not_mem]
  constructor
  · intro h k
    exact Option.eq_none_iff_forall_not_mem.mpr fun v hv => h ⟨k, v⟩ (mem_entries.mpr hv)
  · rintro h ⟨k, v⟩ hmem
    exact absurd (mem_entries.mp hmem) (by simp [h k])

/-! ### Sizes -/

lemma size_put_of_none {t : Table κ α} {k : κ} (v : α) (h : t.get k = none) :
    (t.put k v).size = t.size + 1 := by
  rw [size, put, AList.entries_insert_of_notMem (AList.lookup_eq_none.mp h), List.length_cons, size]

lemma size_put_of_some {t : Table κ α} {k : κ} {u : α} (v : α) (h : t.get k = some u) :
    (t.put k v).size = t.size := by
  have hmem : k ∈ t.keys := AList.mem_keys.mp (AList.lookup_isSome.mp (by
    rw [show AList.lookup k t = some u from h]; rfl))
  have hlen : (t.put k v).keys.length = t.keys.length := by
    rw [put, AList.keys_insert, List.length_cons, List.length_erase_of_mem hmem,
      Nat.sub_add_cancel (List.length_pos_of_mem hmem)]
  simpa [size, AList.keys, List.keys] using hlen

@[simp] lemma size_change (t : Table κ α) (k : κ) (f : α → α) :
    (t.change k f).size = t.size := by
  rw [change]
  cases hk : t.get k with
  | some v => exact size_put_of_some (f v) hk
  | none => rfl

/-! ### Iterations -/

/-- An iteration visits exactly the entries of the table. -/
lemma mem_iter {t : Table κ α} {order : List κ} {k : κ} {v : α} :
    (k, v) ∈ t.iter order ↔ t.get k = some v := by
  rw [iter, List.mem_insertionSort, List.mem_map]
  refine Iff.trans ?_ mem_entries
  constructor
  · rintro ⟨⟨k', v'⟩, he, hkv⟩
    obtain ⟨rfl, rfl⟩ := Prod.mk.inj hkv
    exact he
  · exact fun he => ⟨⟨k, v⟩, he, rfl⟩

/-- An iteration visits no key twice. -/
lemma iter_keys_nodup (t : Table κ α) (order : List κ) : ((t.iter order).map Prod.fst).Nodup := by
  have hperm : ((t.iter order).map Prod.fst).Perm t.keys := by
    refine ((List.perm_insertionSort _ _).map Prod.fst).trans ?_
    rw [List.map_map]
    exact List.Perm.refl _
  exact hperm.nodup_iff.mpr t.keys_nodup

/-! ### Loading -/

/-- A table filled on top of another one. -/
lemma get_foldl_vacant (rows : List (κ × α)) (t : Table κ α) (k : κ) :
    (rows.foldl (fun t r => t.vacant r.1 r.2) t).get k =
      (t.get k).or ((rows.find? fun r => r.1 = k).map Prod.snd) := by
  induction rows generalizing t with
  | nil => simp
  | cons r rows ih =>
      rw [List.foldl_cons, ih, get_vacant, List.find?_cons]
      by_cases h : k = r.1
      · subst h
        cases t.get r.1 <;> simp
      · simp [h, Ne.symm h]

/-- What a loaded table holds: the first row of the key. -/
lemma get_load (rows : List (κ × α)) (k : κ) :
    (load rows).get k = (rows.find? fun r => r.1 = k).map Prod.snd := by
  rw [load, get_foldl_vacant, get_empty, Option.none_or]

/-- Among entries of pairwise different keys, the entry that a search by key finds
is the one of that key. -/
lemma find?_key_eq_some {γ : Type} {key : γ → κ} {l : List γ} (hl : (l.map key).Nodup) {k : κ}
    {x : γ} : (l.find? fun x => key x = k) = some x ↔ x ∈ l ∧ key x = k := by
  constructor
  · intro hfind
    exact ⟨List.mem_of_find?_eq_some hfind, by simpa using List.find?_some hfind⟩
  · rintro ⟨hmem, hkey⟩
    cases hfind : l.find? fun x => key x = k with
    | none => exact absurd hkey (by simpa using List.find?_eq_none.mp hfind x hmem)
    | some y =>
        have hkey' : key y = k := by simpa using List.find?_some hfind
        rw [List.inj_on_of_nodup_map hl hmem (List.mem_of_find?_eq_some hfind)
          (hkey.trans hkey'.symm)]

/-- Loading rows whose keys are pairwise different keeps every row. -/
lemma get_load_of_nodup {rows : List (κ × α)} (hrows : (rows.map Prod.fst).Nodup) {k : κ} {v : α} :
    (load rows).get k = some v ↔ (k, v) ∈ rows := by
  rw [get_load, Option.map_eq_some_iff]
  simp only [find?_key_eq_some hrows]
  constructor
  · rintro ⟨⟨k', v'⟩, ⟨hmem, rfl⟩, rfl⟩
    exact hmem
  · intro hmem
    exact ⟨(k, v), ⟨hmem, rfl⟩, rfl⟩

/-! ### Tables that keep their entries -/

/-- The entries of the one table are in the other, with values in the relation. -/
def Preserves (R : α → α → Prop) (t t' : Table κ α) : Prop :=
  ∀ ⦃k : κ⦄ ⦃v : α⦄, t.get k = some v → ∃ v', t'.get k = some v' ∧ R v v'

section Preserves

variable {R : α → α → Prop} {t t' t'' : Table κ α}

lemma Preserves.refl (hR : ∀ v, R v v) : Preserves R t t := fun _ v hv => ⟨v, hv, hR v⟩

lemma Preserves.trans (hR : ∀ {u v w}, R u v → R v w → R u w) (h : Preserves R t t')
    (h' : Preserves R t' t'') : Preserves R t t'' := by
  intro k v hv
  obtain ⟨v', hv', hone⟩ := h hv
  obtain ⟨v'', hv'', htwo⟩ := h' hv'
  exact ⟨v'', hv'', hR hone htwo⟩

lemma preserves_change (hR : ∀ v, R v v) (k : κ) {f : α → α} (hf : ∀ v, R v (f v)) :
    Preserves R t (t.change k f) := by
  intro k' v hv
  rw [get_change]
  split_ifs with hk
  · rw [← hk, hv]
    exact ⟨f v, rfl, hf v⟩
  · exact ⟨v, hv, hR v⟩

lemma preserves_put (hR : ∀ v, R v v) {k : κ} {u : α} (hu : ∀ v, t.get k = some v → R v u) :
    Preserves R t (t.put k u) := by
  intro k' v hv
  rw [get_put]
  split_ifs with hk
  · exact ⟨u, rfl, hu v (hk ▸ hv)⟩
  · exact ⟨v, hv, hR v⟩

lemma preserves_vacant (hR : ∀ v, R v v) (k : κ) (u : α) : Preserves R t (t.vacant k u) :=
  fun _ v hv => ⟨v, get_vacant_eq_some.mpr (.inl hv), hR v⟩

end Preserves

end Table

end Calculus
