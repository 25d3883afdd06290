import PreferenceAccessors.FileTree
import PreferenceAccessors.Proofs.Entries

/-!
What writing into a tree does to its files. A file is written where its names
lead once two dots are taken back, and every other file is as it was, whether
the system takes the new one or refuses it. Making directories changes no file.
-/

namespace PreferenceAccessors.FileTree

theorem entry?_setEntry (entries : List (String × FileTree)) (name other : String)
    (t : FileTree) :
    entry? (setEntry entries name t) other =
      if other = name then some t else entry? entries other := by
  unfold entry?
  rw [Entries.find?_eq_lookup, Entries.find?_eq_lookup]
  exact Entries.lookup_put entries (name, t) other

def file? (t : FileTree) (names : List String) : Option ByteArray :=
  match t.find? names with
  | some (file bytes) => some bytes
  | _ => none

theorem file?_of_find? {t : FileTree} {names : List String} {bytes : ByteArray}
    (h : t.find? names = some (file bytes)) : t.file? names = some bytes := by
  rw [file?, h]

def IsFree (t : FileTree) (names : List String) : Prop :=
  ∀ entries, t.find? names ≠ some (directory entries)

def HasParent (t : FileTree) (names : List String) : Prop :=
  names = [] ∨ ∃ entries, t.find? names.dropLast = some (directory entries)

theorem find?_directory_cons (entries : List (String × FileTree)) (name : String)
    (rest : List String) :
    (directory entries).find? (name :: rest) = entry? entries name >>= (·.find? rest) := by
  rw [find?]
  cases entry? entries name <;> rfl

theorem file?_directory_cons (entries : List (String × FileTree)) (name : String)
    (rest : List String) :
    (directory entries).file? (name :: rest) = entry? entries name >>= (·.file? rest) := by
  rw [file?, find?_directory_cons]
  cases entry? entries name <;> rfl

theorem find?_append (t : FileTree) (above below : List String) :
    t.find? (above ++ below) = (t.find? above).bind (·.find? below) := by
  induction above generalizing t with
  | nil => rfl
  | cons name rest ih =>
    cases t with
    | file bytes => rfl
    | directory entries =>
      rw [List.cons_append, find?_directory_cons, find?_directory_cons]
      cases entry? entries name with
      | none => rfl
      | some child => exact ih child

theorem hasParent_of_find? {t t' : FileTree} {names : List String} (h : t.find? names = some t') :
    t.HasParent names := by
  rcases List.eq_nil_or_concat names with rfl | ⟨above, name, rfl⟩
  · exact .inl rfl
  · right
    rw [List.concat_eq_append, find?_append] at h
    rw [List.concat_eq_append, List.dropLast_concat]
    cases habove : t.find? above with
    | none => simp [habove] at h
    | some t' => cases t' with
      | file bytes => simp [habove, find?] at h
      | directory entries => exact ⟨entries, rfl⟩

theorem find?_put_self {t : FileTree} {names : List String} (h : t.HasParent names)
    (new : FileTree) : (t.put names new).find? names = some new := by
  induction names generalizing t with
  | nil => rfl
  | cons name rest ih =>
    obtain ⟨above, hparent⟩ := h.resolve_left (List.cons_ne_nil name rest)
    cases t with
    | file bytes => cases rest <;> simp [find?] at hparent
    | directory entries =>
      rw [put]
      cases hentry : entry? entries name with
      | none =>
        cases rest with
        | nil => simp [find?, entry?_setEntry]
        | cons m ms => simp [find?_directory_cons, hentry] at hparent
      | some child =>
        have hbelow : child.HasParent rest := by
          cases rest with
          | nil => exact .inl rfl
          | cons m ms =>
            rw [List.dropLast_cons_cons, find?_directory_cons, hentry] at hparent
            exact .inr ⟨above, hparent⟩
        rw [find?_directory_cons, entry?_setEntry, if_pos rfl]
        exact ih hbelow

theorem file?_setEntry {entries : List (String × FileTree)} {name : String} {child : FileTree}
    {other : List String} (hchild : ∀ below, name :: below = other →
      child.file? below = (directory entries).file? other) :
    (directory (setEntry entries name child)).file? other = (directory entries).file? other := by
  cases other with
  | nil => rfl
  | cons m ms =>
    rw [file?_directory_cons, entry?_setEntry]
    split_ifs with hm
    · exact hchild ms (by rw [hm])
    · rw [file?_directory_cons]

theorem file?_put_of_ne {t new : FileTree} {names other : List String} (hfree : t.IsFree names)
    (hnew : ∀ below ≠ [], new.file? below = none) (hne : other ≠ names) :
    (t.put names new).file? other = t.file? other := by
  induction names generalizing t other with
  | nil =>
    cases t with
    | file bytes =>
      obtain ⟨m, ms, rfl⟩ := List.exists_cons_of_ne_nil hne
      exact hnew _ hne
    | directory entries => exact absurd rfl (hfree entries)
  | cons name rest ih =>
    cases t with
    | file bytes => rfl
    | directory entries =>
      have hat : ∀ below, name :: below = other → below ≠ rest := by
        rintro below hother rfl
        exact hne hother.symm
      rw [put]
      cases hentry : entry? entries name with
      | none =>
        dsimp only
        -- only the last name may be new; further ahead nothing is put
        split_ifs with hrest
        · refine file?_setEntry fun below hother => ?_
          rw [hnew below (hrest ▸ hat below hother), ← hother, file?_directory_cons, hentry]
          rfl
        · rfl
      | some child =>
        have hchild : child.IsFree rest := by
          intro entries' h
          apply hfree entries'
          rw [find?_directory_cons, hentry]
          exact h
        refine file?_setEntry fun below hother => ?_
        rw [ih hchild (hat below hother), ← hother, file?_directory_cons, hentry]
        rfl

theorem file?_put_empty {t : FileTree} {names : List String} (hparent : t.HasParent names)
    (h : t.find? names = none) : (t.put names empty).file? = t.file? := by
  funext other
  by_cases hother : other = names
  · rw [hother, file?, file?, find?_put_self hparent, h]
    rfl
  · refine file?_put_of_ne (by simp [IsFree, h]) (fun below hbelow => ?_) hother
    obtain ⟨name, rest, rfl⟩ := List.exists_cons_of_ne_nil hbelow
    rfl

theorem follow_ok {t : FileTree} {done rest names : List String} (hdone : t.HasParent done)
    (h : t.follow done rest = .ok names) :
    t.HasParent names ∧
      names = rest.foldl (fun done part => if part = ".." then done.dropLast else done ++ [part])
        done := by
  induction rest generalizing done with
  | nil =>
    obtain rfl : done = names := Except.ok.inj h
    exact ⟨hdone, rfl⟩
  | cons name rest ih =>
    cases hat : t.find? done with
    | none => simp [follow, hat] at h
    | some t' => cases t' with
      | file bytes => simp [follow, hat] at h
      | directory entries =>
        simp only [follow, hat] at h
        rw [List.foldl_cons]
        split_ifs at h ⊢ with hup htoo
        -- up again, out of a directory that is there, so the one above it is there as well
        · refine ih ?_ h
          rcases hdone with rfl | ⟨above, habove⟩
          · exact .inl rfl
          · exact hasParent_of_find? habove
        · refine ih (.inr ⟨entries, ?_⟩) h
          rw [List.dropLast_concat]
          exact hat

theorem follow_root {t : FileTree} {parts names : List String} (h : t.follow [] parts = .ok names) :
    t.HasParent names ∧ names = Path.collapse parts :=
  follow_ok (.inl rfl) h

theorem file?_makeDirectory {t made : FileTree} {parts : List String}
    (h : t.makeDirectory parts = .ok made) : made.file? = t.file? := by
  unfold makeDirectory at h
  cases hfollow : t.follow [] parts with
  | error e => simp [hfollow, bind, Except.bind] at h
  | ok names =>
    simp only [hfollow, bind, Except.bind] at h
    split at h
    · exact nomatch h
    next hnone =>
      obtain rfl := Except.ok.inj h
      exact file?_put_empty (follow_root hfollow).1 hnone

theorem file?_makeDirectories (t : FileTree) (done rest : List String) :
    (t.makeDirectories done rest).2.file? = t.file? := by
  induction rest generalizing t done with
  | nil => rfl
  | cons name rest ih =>
    unfold makeDirectories
    split
    · rfl
    next names hfollow =>
      split
      · exact ih t (done ++ [name])
      · rfl
      next hnone =>
        rw [ih]
        exact file?_put_empty (follow_root hfollow).1 hnone

theorem file?_write {t after : FileTree} {parts : List String} {bytes : ByteArray}
    (h : t.write parts bytes = .ok after) :
    after.file? (Path.collapse parts) = some bytes ∧
      ∀ other ≠ Path.collapse parts, after.file? other = t.file? other := by
  unfold write at h
  cases hfollow : t.follow [] parts with
  | error e => simp [hfollow, bind, Except.bind] at h
  | ok names =>
    obtain ⟨hparent, hnames⟩ := follow_root hfollow
    simp only [hfollow, bind, Except.bind] at h
    split at h
    · exact nomatch h
    next hfree =>
      obtain rfl := Except.ok.inj h
      rw [← hnames]
      refine ⟨file?_of_find? (find?_put_self hparent _), fun other hother => ?_⟩
      refine file?_put_of_ne hfree (fun below hbelow => ?_) hother
      obtain ⟨name, rest, rfl⟩ := List.exists_cons_of_ne_nil hbelow
      rfl

end PreferenceAccessors.FileTree
