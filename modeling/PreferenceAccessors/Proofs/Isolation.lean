import PreferenceAccessors.Proofs.Entries
import PreferenceAccessors.Proofs.History
import PreferenceAccessors.Proofs.Interruption
import PreferenceAccessors.Proofs.Reordering

/-!
Groups that are refused one by one. A sink that keeps files by name refuses some
names when their file is created and others while it is written; either way nothing
is left of the file and nothing else is touched. Then writing a table always comes to
its end: every group is put once, in the order of the table, the names given and the
files left are those of the groups that were not refused, and each other group is one
error in the log.
-/

namespace PreferenceAccessors

theorem qualifiedName_injective (package : String) : Function.Injective (qualifiedName package) := by
  intro g h heq
  unfold qualifiedName at heq
  split_ifs at heq
  · exact heq
  · simpa [← String.toList_inj, String.toList_append] using heq

theorem Group.file_eq (g : Group) (package : String) :
    g.file package = (qualifiedName package g.name, g.render package) := by
  rw [file, render_eq]

namespace GroupTable

/-- The tables that come of the empty one by asking for groups and adding to them. -/
inductive IsBuilt : GroupTable → Prop
  | empty : IsBuilt .empty
  | ensure {t : GroupTable} (h : t.IsBuilt) (name : String) : IsBuilt (t.ensure name).value.2
  | append {t : GroupTable} (h : t.IsBuilt) (name fragment : String) (accessor : Option String) :
      IsBuilt (t.append name fragment accessor)

theorem IsBuilt.nodup_names {t : GroupTable} (h : t.IsBuilt) : t.names.Nodup := by
  induction h with
  | empty => exact List.nodup_nil
  | ensure h name ih =>
    rw [names_ensure]
    split_ifs with hmem
    · exact ih
    · rw [← List.concat_eq_append]
      exact ih.concat hmem
  | append h name fragment accessor ih => rwa [names_append]

theorem nodup_files {t : GroupTable} (h : t.names.Nodup) (package : String) :
    ((t.groups.map (Group.file package)).map Prod.fst).Nodup := by
  have hnames : (t.groups.map (Group.file package)).map Prod.fst =
      t.names.map (qualifiedName package) := by
    rw [names, List.map_map, List.map_map]
    rfl
  rw [hnames]
  exact h.map (qualifiedName_injective package)

end GroupTable

theorem Notice.asked?_eq_none_of_isCalm {n : Notice} (h : n.IsCalm) : n.asked? = none :=
  (n.isCalm_iff.mp h).2

theorem filterMap_asked?_filter_not_calm (log : List Notice) :
    (log.filter (¬ ·.IsCalm)).filterMap Notice.asked? = log.filterMap Notice.asked? := by
  rw [List.filterMap_filter]
  apply List.filterMap_congr
  intro n _
  by_cases h : n.IsCalm
  · simp [h, Notice.asked?_eq_none_of_isCalm h]
  · simp [h]

theorem filter_error_filter_not_calm (log : List Notice) :
    (log.filter (¬ ·.IsCalm)).filter (·.level? = some .error) =
      log.filter (·.level? = some .error) := by
  rw [List.filter_filter]
  apply List.filter_congr
  intro n _
  by_cases h : n.IsCalm
  · simp [h, (n.isCalm_iff.mp h).1]
  · simp [h]

namespace Sink

/-- What a sink holds under a name, and for what reason, if there is one, it refuses a name when a
file is created under it and while that file is written. -/
structure Keeping (σ : Type) where
  content? : σ → String → Option String
  atCreation? : σ → String → Option String
  atWriting? : σ → String → Option String

variable {σ : Type}

def Keeping.refusal? (k : Keeping σ) (state : σ) (name : String) : Option String :=
  k.atCreation? state name <|> k.atWriting? state name

def answer : Option String → Except PutError Unit
  | none => .ok ()
  | some reason => .error (.refused reason)

/-- A sink that keeps what it takes under its name, and nothing of what it refuses. What has been
put makes no difference to what is refused. -/
structure Keeps (sink : Sink σ) (k : Keeping σ) : Prop where
  answers : ∀ state name text,
    (sink.put state name text).value.1 = answer (k.refusal? state name)
  taken : ∀ state name text, k.refusal? state name = none → ∀ other,
    k.content? (sink.put state name text).value.2 other =
      if other = name then some text else k.content? state other
  refused : ∀ state name text, k.refusal? state name ≠ none →
    k.content? (sink.put state name text).value.2 = k.content? state
  steady : ∀ state name text, k.refusal? (sink.put state name text).value.2 = k.refusal? state
  quiet : sink.Quiet

theorem asked?_account {files : List (String × String)} {answers : List (Except PutError Unit)}
    (h : answers.length = files.length) :
    (account files answers).filterMap Notice.asked? = files.map Prod.fst := by
  induction files generalizing answers with
  | nil =>
    obtain rfl : answers = [] := List.length_eq_zero_iff.mp h
    rfl
  | cons file files ih =>
    cases answers with
    | nil => simp at h
    | cons answer answers =>
      have hrest := ih (Nat.succ.inj h)
      rcases answer with (reason | cause) | _
      · exact congrArg (file.1 :: ·) hrest
      · exact congrArg (file.1 :: ·) hrest
      · exact congrArg (file.1 :: ·) hrest

theorem filter_error_account (refusal? : String → Option String) (files : List (String × String)) :
    (account files (files.map fun file => answer (refusal? file.1))).filter
        (·.level? = some .error) =
      files.filterMap fun file => (refusal? file.1).map (.groupNotWritten file.1) := by
  induction files with
  | nil => rfl
  | cons file files ih =>
    have hasked : (Notice.sinkAsked file.1).level? ≠ some .error := by simp [Notice.level?]
    rw [List.map_cons, List.filterMap_cons, ← ih]
    cases h : refusal? file.1 with
    | none => exact List.filter_cons_of_neg (by simpa using hasked)
    | some reason =>
      refine (List.filter_cons_of_neg (by simpa using hasked)).trans ?_
      exact List.filter_cons_of_pos (by simp [Notice.level?])

namespace Keeps
variable {sink : Sink σ} {k : Keeping σ} (h : sink.Keeps k)
include h

theorem put_ne_malformed (state : σ) (name text : String) (cause : Malformation) :
    (sink.put state name text).value.1 ≠ .error (.malformed cause) := by
  rw [h.answers]
  cases k.refusal? state name <;> simp [answer]

theorem refusal?_putAll (files : List (String × String)) (state : σ) :
    k.refusal? (sink.putAll files state).2 = k.refusal? state := by
  induction files generalizing state with
  | nil => rfl
  | cons file files ih => rw [putAll_cons, ih, h.steady]

theorem answers_putAll (files : List (String × String)) (state : σ) :
    (sink.putAll files state).1 = files.map fun file => answer (k.refusal? state file.1) := by
  induction files generalizing state with
  | nil => rfl
  | cons file files ih => simp only [putAll_cons, ih, h.answers, h.steady, List.map_cons]

theorem takesByName (state : σ) :
    sink.TakesByName state fun name => (k.refusal? state name).isNone := by
  intro files name text
  rw [h.answers, h.refusal?_putAll]
  cases hrefusal : k.refusal? state name <;> simp [answer, hrefusal]

theorem content?_put_of_ne {state : σ} {name other : String} (text : String)
    (hne : k.refusal? state name = none → name ≠ other) :
    k.content? (sink.put state name text).value.2 other = k.content? state other := by
  by_cases htaken : k.refusal? state name = none
  · rw [h.taken state name text htaken, if_neg (hne htaken).symm]
  · rw [h.refused state name text htaken]

theorem content?_putAll_of_ne {files : List (String × String)} {state : σ} {name : String}
    (hne : ∀ file ∈ files, k.refusal? state file.1 = none → file.1 ≠ name) :
    k.content? (sink.putAll files state).2 name = k.content? state name := by
  induction files generalizing state with
  | nil => rfl
  | cons file files ih =>
    obtain ⟨hfile, hfiles⟩ := List.forall_mem_cons.mp hne
    rw [← h.steady state file.1 file.2] at hfiles
    rw [putAll_cons, ih hfiles, h.content?_put_of_ne file.2 hfile]

theorem content?_putAll_of_mem {files : List (String × String)} {state : σ} {name text : String}
    (hnodup : (files.map Prod.fst).Nodup) (hmem : (name, text) ∈ files)
    (htaken : k.refusal? state name = none) :
    k.content? (sink.putAll files state).2 name = some text := by
  induction files generalizing state with
  | nil => simp at hmem
  | cons file files ih =>
    obtain ⟨hfirst, hrest⟩ := List.nodup_cons.mp hnodup
    rw [putAll_cons]
    rcases List.mem_cons.mp hmem with rfl | hlater
    · -- No later file has the name, so what the first one left is there at the end.
      have hlater : ∀ file ∈ files, file.1 ≠ name := by
        rintro file hfile rfl
        exact hfirst (List.mem_map.mpr ⟨file, hfile, rfl⟩)
      rw [h.content?_putAll_of_ne fun file hfile _ => hlater file hfile,
        h.taken state name text htaken, if_pos rfl]
    · exact ih hrest hlater (by rw [h.steady, htaken])

theorem writesOut (package : String) (groups : List Group) (state : σ) :
    sink.WritesOut (groups.map (Group.file package)) state
      (sink.writeAll package groups state) := by
  rcases writeAll_cases h.quiet package groups state with hout | ⟨_, g, _, cause, -, hoff⟩
  · exact hout
  · exact absurd hoff.breaks (h.put_ne_malformed _ _ _ cause)

theorem filterMap_asked?_writeAll (package : String) (groups : List Group) (state : σ) :
    (sink.writeAll package groups state).log.filterMap Notice.asked? =
      groups.map fun g => qualifiedName package g.name := by
  have hlength : (sink.putAll (groups.map (Group.file package)) state).1.length =
      (groups.map (Group.file package)).length := by
    rw [h.answers_putAll, List.length_map]
  rw [← filterMap_asked?_filter_not_calm, (h.writesOut package groups state).told,
    asked?_account hlength, List.map_map]
  rfl

theorem filter_error_writeAll (package : String) (groups : List Group) (state : σ) :
    (sink.writeAll package groups state).log.filter (·.level? = some .error) =
      groups.filterMap fun g => (k.refusal? state (qualifiedName package g.name)).map
        (.groupNotWritten (qualifiedName package g.name)) := by
  rw [← filter_error_filter_not_calm, (h.writesOut package groups state).told, h.answers_putAll,
    filter_error_account, List.filterMap_map]
  rfl

end Keeps

end Sink

namespace MemorySink

def keeping : Sink.Keeping MemorySink where
  content? s name := s.files.lookup name
  atCreation? s name :=
    if s.refusedAtCreation.contains name then some ("cannot create " ++ name) else none
  atWriting? s name := if s.refusedAtWriting.contains name then some "no space left" else none

theorem put_value (s : MemorySink) (name text : String) :
    (sink.put s name text).value = match keeping.refusal? s name with
      | none => (.ok (), ⟨s.refusedAtCreation, s.refusedAtWriting, store s.files name text⟩)
      | some reason => (.error (.refused reason), s) := by
  simp only [sink, Logged.pure_value, Sink.Keeping.refusal?, keeping]
  split_ifs <;> rfl

theorem keeps : sink.Keeps keeping where
  answers s name text := by
    rw [put_value]
    cases keeping.refusal? s name <;> rfl
  taken s name text htaken other := by
    rw [put_value, htaken]
    exact Entries.lookup_put s.files (name, text) other
  refused s name text hrefused := by
    obtain ⟨reason, hreason⟩ := Option.ne_none_iff_exists'.mp hrefused
    rw [put_value, hreason]
  steady s name text := by
    rw [put_value]
    cases keeping.refusal? s name <;> rfl
  quiet s name text n hn := by
    simp [sink] at hn

end MemorySink

namespace Sink

/-- Into a sink that keeps files by name the writing of a table always ends. Every group is put
once, in order; the names of those that are not refused are given back, and they are held with
their texts; under any other name there is what there was; each refused group is one error. A
session keeps its table. -/
theorem writeGroups_isolates {σ : Type} {sink : Sink σ} {k : Keeping σ} (h : sink.Keeps k)
    {t : GroupTable} (hbuilt : t.IsBuilt) (package : String) (state : σ) :
    let written := sink.writeGroups t package state
    let qualified (g : Group) := qualifiedName package g.name
    let refusal? (g : Group) := k.refusal? state (qualified g)
    let kept := t.groups.filter fun g => (refusal? g).isNone
    written.value.1 = .ok (kept.map qualified) ∧
    written.value.2 = (sink.putAll (t.groups.map fun g => (qualified g, g.render package)) state).2 ∧
    (∀ g ∈ kept, k.content? written.value.2 (qualified g) = some (g.render package)) ∧
    (∀ name, (∀ g ∈ kept, qualified g ≠ name) →
      k.content? written.value.2 name = k.content? state name) ∧
    written.log.filterMap Notice.asked? = t.groups.map qualified ∧
    written.log.filter (·.level? = some .error) =
      t.groups.filterMap (fun g => (refusal? g).map (.groupNotWritten (qualified g))) ∧
    ∀ s : Session, s.groups = t →
      (s.serve state (.write package sink)).value = (s, written.value.2) := by
  intro written qualified refusal? kept
  set files := t.groups.map (Group.file package) with hfiles
  have hvalue : written.value = (.ok (taken files (sink.putAll files state).1),
    (sink.putAll files state).2) := (h.writesOut package t.groups state).value
  refine ⟨?_, ?_, fun g hg => ?_, fun name hname => ?_, ?_, ?_, ?_⟩
  · rw [hvalue, (h.takesByName state).taken_eq, hfiles, List.map_map]
    exact congrArg Except.ok List.filter_map
  · rw [hvalue, hfiles, List.map_congr_left fun g _ => g.file_eq package]
  · obtain ⟨hmem, htaken⟩ := List.mem_filter.mp hg
    rw [hvalue]
    refine h.content?_putAll_of_mem (GroupTable.nodup_files hbuilt.nodup_names package) ?_
      (Option.isNone_iff_eq_none.mp htaken)
    rw [← g.file_eq]
    exact List.mem_map_of_mem hmem
  · rw [hvalue]
    refine h.content?_putAll_of_ne fun file hmem htaken => ?_
    obtain ⟨g, hg, rfl⟩ := List.mem_map.mp hmem
    exact hname g (List.mem_filter.mpr ⟨hg, Option.isNone_iff_eq_none.mpr htaken⟩)
  · exact h.filterMap_asked?_writeAll package t.groups state
  · exact h.filter_error_writeAll package t.groups state
  · rintro s rfl
    rfl

def Sample.table : GroupTable :=
  ⟨[⟨"A", ["  // a"], ["A"]⟩, .new "B", .new "C", .new "D"]⟩

def Sample.refusing : MemorySink :=
  ⟨["p.B"], ["p.C", "p.B"], [("p.A", "old"), ("p.C", "old")]⟩

theorem sample_isolates :
    let written := MemorySink.sink.writeGroups Sample.table "p" Sample.refusing
    MemorySink.sink.Keeps MemorySink.keeping ∧ Sample.table.IsBuilt ∧
    written.value.1 = .ok ["p.A", "p.D"] ∧
    written.value.2.files.lookup "p.A" = some ((⟨"A", ["  // a"], ["A"]⟩ : Group).render "p") ∧
    written.value.2.files.lookup "p.C" = some "old" ∧
    written.log.filterMap Notice.asked? = ["p.A", "p.B", "p.C", "p.D"] ∧
    written.log.filter (·.level? = some .error) =
      [.groupNotWritten "p.B" "cannot create p.B", .groupNotWritten "p.C" "no space left"] := by
  intro written
  have hbuilt : Sample.table.IsBuilt :=
    ((((GroupTable.IsBuilt.empty.ensure "A").append "A" "  // a" (some "A")).ensure "B").ensure
      "C").ensure "D"
  obtain ⟨hvalue, -, hheld, hother, hasked, herrors, -⟩ :=
    writeGroups_isolates MemorySink.keeps hbuilt "p" Sample.refusing
  exact ⟨MemorySink.keeps, hbuilt, hvalue, hheld ⟨"A", ["  // a"], ["A"]⟩ (by decide),
    hother "p.C" (by decide), hasked, herrors⟩

end Sink

end PreferenceAccessors
