import Mathlib.Tactic

/-!
Entries by name. A list of entries says of a name what its first entry of that
name says; putting an entry takes the place of the one of its name, or the last
place. Names in order of first occurrence grow by the names that are new.
-/

namespace PreferenceAccessors

section FirstOccurrence
variable {α : Type} [BEq α] [LawfulBEq α]

theorem eraseDups_concat [DecidableEq α] (xs : List α) (x : α) :
    (xs ++ [x]).eraseDups = if x ∈ xs then xs.eraseDups else xs.eraseDups ++ [x] := by
  rw [List.eraseDups_append]
  by_cases h : x ∈ xs <;> simp [List.removeAll, h, List.eraseDups_cons]

theorem nodup_eraseDups [DecidableEq α] (xs : List α) : xs.eraseDups.Nodup := by
  induction xs using List.reverseRecOn with
  | nil => exact List.nodup_nil
  | append_singleton xs x ih =>
    rw [eraseDups_concat]
    split_ifs with h
    · exact ih
    · rw [List.nodup_append_comm]
      exact List.nodup_cons.mpr ⟨mt List.mem_eraseDups.mp h, ih⟩

end FirstOccurrence

namespace Entries
variable {α : Type} {entries : List (String × α)} {name : String} {a : α}

theorem find?_eq_lookup (entries : List (String × α)) (name : String) :
    (entries.find? (·.1 == name)).map Prod.snd = entries.lookup name := by
  induction entries with
  | nil => rfl
  | cons entry rest ih =>
    obtain ⟨key, a⟩ := entry
    by_cases h : key = name
    · simp [h]
    · rw [List.find?_cons_of_neg (by simpa using h), ih, List.lookup_cons,
        beq_false_of_ne (Ne.symm h)]

theorem lookup_eq_none_iff_not_mem : entries.lookup name = none ↔ name ∉ entries.map Prod.fst := by
  simp only [List.lookup_eq_none_iff, bne_iff_ne, List.mem_map, not_exists, not_and, ne_comm, ne_eq]

theorem mem_of_lookup_eq_some (h : entries.lookup name = some a) : (name, a) ∈ entries := by
  obtain ⟨before, after, rfl, -⟩ := List.lookup_eq_some_iff.mp h
  exact List.mem_append_right _ List.mem_cons_self

theorem lookup_eq_some_of_mem (hnodup : (entries.map Prod.fst).Nodup) (h : (name, a) ∈ entries) :
    entries.lookup name = some a := by
  cases hfound : entries.lookup name with
  | none => exact absurd (List.mem_map_of_mem h) (lookup_eq_none_iff_not_mem.mp hfound)
  | some b =>
    have hsame := List.inj_on_of_nodup_map hnodup (mem_of_lookup_eq_some hfound) h rfl
    rw [(Prod.mk.inj hsame).2]

def put (entries : List (String × α)) (entry : String × α) : List (String × α) :=
  if entries.any (·.1 == entry.1) then entries.map fun e => if e.1 == entry.1 then entry else e
  else entries ++ [entry]

theorem any_key_iff (entries : List (String × α)) (name : String) :
    entries.any (·.1 == name) ↔ name ∈ entries.map Prod.fst := by
  simp only [List.any_eq_true, beq_iff_eq, List.mem_map]

theorem names_put (entries : List (String × α)) (entry : String × α) :
    (put entries entry).map Prod.fst =
      if entry.1 ∈ entries.map Prod.fst then entries.map Prod.fst
      else entries.map Prod.fst ++ [entry.1] := by
  unfold put
  simp only [any_key_iff]
  split_ifs
  · rw [List.map_map]
    refine List.map_congr_left fun e _ => ?_
    by_cases h : e.1 = entry.1 <;> simp [h]
  · rw [List.map_append, List.map_singleton]

theorem lookup_replace (entries : List (String × α)) (entry : String × α) (other : String) :
    (entries.map fun e => if e.1 == entry.1 then entry else e).lookup other =
      if other = entry.1 then (entries.lookup other).map fun _ => entry.2
      else entries.lookup other := by
  obtain ⟨name, new⟩ := entry
  induction entries with
  | nil => simp
  | cons e rest ih =>
    obtain ⟨key, old⟩ := e
    by_cases hkey : key = name
    · by_cases hother : other = name
      · simp [hkey, hother]
      · simpa [hkey, hother, List.lookup_cons, beq_false_of_ne hother] using ih
    · by_cases hother : other = name
      · simpa [hkey, hother, List.lookup_cons, beq_false_of_ne (Ne.symm hkey)] using ih
      · simp only [List.map_cons, beq_false_of_ne hkey, List.lookup_cons, ih, hother, if_false,
          Bool.false_eq_true]

theorem lookup_put (entries : List (String × α)) (entry : String × α) (other : String) :
    (put entries entry).lookup other =
      if other = entry.1 then some entry.2 else entries.lookup other := by
  unfold put
  simp only [any_key_iff]
  split_ifs with hmem hother hother
  · rw [lookup_replace, if_pos hother]
    subst hother
    obtain ⟨old, hold⟩ := Option.ne_none_iff_exists'.mp
      (mt lookup_eq_none_iff_not_mem.mp (not_not.mpr hmem))
    rw [hold, Option.map_some]
  · rw [lookup_replace, if_neg hother]
  · subst hother
    rw [List.lookup_append, lookup_eq_none_iff_not_mem.mpr hmem, Option.none_or]
    exact List.lookup_cons_self
  · obtain ⟨name, new⟩ := entry
    simp [List.lookup_append, List.lookup_cons, beq_false_of_ne hother]

end Entries

end PreferenceAccessors
