/-!
# Entries

Values bound to names, in the order in which the names first came up.  Setting a name that is
already there replaces its value and keeps its place.

Main definitions:

- `Entries`: the type, with `List.lookup` as its reader.
- `Entries.insert`: sets a name.
- `Entries.ofList`: sets names one after the other.

Main results:

- `Entries.lookup_cons`: a look-up reads one entry after the other.
- `Entries.lookup_insert`: what a look-up finds after a name is set.
- `Entries.keys_insert`: the names after a name is set.
- `Entries.insert_eq_self`: to set a name to its value changes nothing.
- `Entries.lookup_of_mem`: a look-up finds each entry, if each name is bound once.
-/

namespace LiveMarkup

/-- Values bound to names, in order. -/
abbrev Entries (α : Type) := List (String × α)

namespace Entries

variable {α : Type}

/-- The names, in order. -/
def keys (entries : Entries α) : List String :=
  entries.map (·.1)

/-- The values, in order. -/
def values (entries : Entries α) : List α :=
  entries.map (·.2)

/-- Set a name: in its place if it is there, else at the end. -/
def insert (name : String) (value : α) : Entries α → Entries α
  | [] => [(name, value)]
  | (other, held) :: rest =>
    if name = other then (other, value) :: rest else (other, held) :: insert name value rest

/-- Bindings set one after the other. -/
def ofList (bindings : List (String × α)) : Entries α :=
  bindings.foldl (fun entries binding => insert binding.1 binding.2 entries) []

theorem keys_cons (name : String) (value : α) (rest : Entries α) :
    keys ((name, value) :: rest) = name :: keys rest :=
  rfl

/-- A look-up reads the first entry and, if it has another name, the rest. -/
theorem lookup_cons (name other : String) (value : α) (rest : Entries α) :
    List.lookup other ((name, value) :: rest) =
      if other = name then some value else rest.lookup other := by
  rw [List.lookup_cons]
  by_cases h : other = name
  · simp [h]
  · have hbeq : (other == name) = false := by simpa using h
    simp [h, hbeq]

/-- A look-up finds the value just set under its name and the old value under any other. -/
theorem lookup_insert (name other : String) (value : α) (entries : Entries α) :
    (insert name value entries).lookup other =
      if other = name then some value else entries.lookup other := by
  induction entries with
  | nil => rw [insert, lookup_cons]
  | cons entry rest ih =>
    obtain ⟨key, held⟩ := entry
    rw [insert, lookup_cons]
    by_cases hkey : name = key
    · subst hkey
      rw [if_pos rfl, lookup_cons]
      by_cases h : other = name <;> simp [h]
    · rw [if_neg hkey, lookup_cons, ih]
      by_cases h : other = key
      · have hne : other ≠ name := fun heq => hkey (heq.symm.trans h)
        rw [if_pos h, if_neg hne, if_pos h]
      · rw [if_neg h, if_neg h]

/-- Setting a name adds it at the end unless it is there already. -/
theorem keys_insert (name : String) (value : α) (entries : Entries α) :
    keys (insert name value entries) =
      if name ∈ keys entries then keys entries else keys entries ++ [name] := by
  induction entries with
  | nil => simp [insert, keys]
  | cons entry rest ih =>
    obtain ⟨key, held⟩ := entry
    by_cases hkey : name = key
    · subst hkey; simp [insert, keys]
    · simp only [keys] at ih
      by_cases h : name ∈ rest.map (·.1) <;> simp_all [insert, keys]

variable {entries : Entries α} {name : String} {value : α}

/-- A look-up fails exactly for the names that are not there. -/
theorem lookup_eq_none_iff : entries.lookup name = none ↔ name ∉ keys entries := by
  simp only [List.lookup_eq_none_iff, keys, List.mem_map, bne_iff_ne, ne_eq]
  constructor
  · rintro h ⟨entry, hmem, heq⟩
    exact h entry hmem heq.symm
  · intro h entry hmem heq
    exact h ⟨entry, hmem, heq.symm⟩

/-- To set a name to the value that it has changes nothing. -/
theorem insert_eq_self (h : entries.lookup name = some value) :
    insert name value entries = entries := by
  induction entries with
  | nil => cases h
  | cons entry rest ih =>
    obtain ⟨other, held⟩ := entry
    rw [lookup_cons] at h
    rw [insert]
    split at h
    · next hname =>
      cases h
      rw [if_pos hname]
    · next hname => rw [if_neg hname, ih h]

/-- What a look-up finds is an entry. -/
theorem mem_of_lookup (h : entries.lookup name = some value) : (name, value) ∈ entries := by
  obtain ⟨before, after, rfl, -⟩ := List.lookup_eq_some_iff.mp h
  simp

/-- If each name is bound once, a look-up finds every entry. -/
theorem lookup_of_mem (hnodup : (keys entries).Nodup) (h : (name, value) ∈ entries) :
    entries.lookup name = some value := by
  induction entries with
  | nil => cases h
  | cons entry rest ih =>
    obtain ⟨other, held⟩ := entry
    obtain ⟨hnew, hrest⟩ := List.nodup_cons.mp hnodup
    rw [lookup_cons]
    cases h with
    | head => exact if_pos rfl
    | tail _ h =>
      have hne : name ≠ other := by
        rintro rfl
        exact hnew (List.mem_map.mpr ⟨_, h, rfl⟩)
      rw [if_neg hne]
      exact ih hrest h

end Entries
end LiveMarkup
