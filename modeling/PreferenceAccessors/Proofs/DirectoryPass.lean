import PreferenceAccessors.Proofs.Interruption
import PreferenceAccessors.Proofs.Landing

/-!
A pass into an output directory. What the system refuses is told and the other
groups are written. But a path with a NUL character, or what has no encoding, is
never put to the system, and the first group that comes to that ends the pass.
-/

namespace PreferenceAccessors

namespace OutputDirectory

theorem quiet_sink (d : OutputDirectory) (garbled : Bool) : (d.sink garbled).Quiet := by
  have hopened (name path : String) : (Notice.fileOpened name path).IsCalm := by
    simp [Notice.isCalm_iff, Notice.level?, Notice.asked?]
  have hcreated (path : String) : (Notice.directoryCreated path).IsCalm := by
    simp [Notice.isCalm_iff, Notice.level?, Notice.asked?]
  have hensure (tree : FileTree) : ∀ n ∈ (d.ensure tree).log, n.IsCalm := by
    unfold ensure
    dsimp only
    split
    · simp
    · simp
    · simp
    · split
      · simp
      · simp
      · simp only [Logged.bind_log, Logged.tell_log, List.mem_append, List.mem_singleton]
        rintro n (rfl | hn)
        · exact hcreated _
        · revert hn
          split <;> simp
  intro tree name text n hn
  simp only [sink, create, Logged.bind_log, Logged.pure_log, List.append_nil, List.mem_append] at hn
  rcases hn with hn | hn
  · exact hensure tree n hn
  · revert hn
    generalize (d.ensure tree).value = ensured
    rcases ensured with ⟨e | _, made⟩
    · simp
    · dsimp only
      generalize prepare made (d.pathFor name) garbled = prepared
      rcases prepared with ⟨e | _, ready⟩
      · simp
      · simp only [Logged.bind_log, Logged.tell_log, Logged.pure_log, List.append_nil,
          List.mem_singleton]
        rintro rfl
        exact hopened _ _

/-- When a file ends the writing: the output directory can be had, and then the path of the
directory of the file, the path of the file or its text is malformed. -/
inductive Stops (d : OutputDirectory) (garbled : Bool) (tree : FileTree) (name text : String) :
    Malformation → Prop
  | directory {ready : FileTree} {cause : Malformation}
      (hready : (d.ensure tree).value = (.ok d.path, ready))
      (hpath : malformation? garbled (d.pathFor name).parent = some cause) :
      Stops d garbled tree name text cause
  | file {ready made : FileTree} {cause : Malformation}
      (hready : (d.ensure tree).value = (.ok d.path, ready))
      (hmade : prepare ready (d.pathFor name) garbled = (.ok (), made))
      (hpath : malformation? garbled (d.pathFor name) = some cause) :
      Stops d garbled tree name text cause
  | text {ready made opened : FileTree} {halves : Text.Unencodable}
      (hready : (d.ensure tree).value = (.ok d.path, ready))
      (hmade : prepare ready (d.pathFor name) garbled = (.ok (), made))
      (hpath : malformation? garbled (d.pathFor name) = none)
      (hshort : ¬ FileTree.isPathTooLong (d.pathFor name))
      (hopened : made.write (d.pathFor name).parts .empty = .ok opened)
      (hgarbled : garbled = true) (htext : Text.Unencodable.ofText? text = some halves) :
      Stops d garbled tree name text (.unencodable halves)

theorem ensure_value (d : OutputDirectory) (tree : FileTree) :
    (d.ensure tree).value.1 = .ok d.path ∨
      ∃ e, (d.ensure tree).value.1 = .error e ∧ ∀ cause, e ≠ .malformed cause := by
  unfold ensure
  dsimp only
  rcases tree.status root d.path.parent with e | _ | bytes | entries
  · exact .inr ⟨_, rfl, by simp⟩
  · exact .inr ⟨_, rfl, by simp⟩
  · exact .inr ⟨_, rfl, by simp⟩
  · rcases tree.status root d.path with e | _ | here
    · exact .inr ⟨_, rfl, by simp⟩
    · cases hmade : tree.makeDirectory d.path.parts with
      | error e => exact .inr ⟨_, rfl, by simp⟩
      | ok made => exact .inl rfl
    · exact .inl rfl

theorem prepare_malformed_iff {tree : FileTree} {target : Path} {garbled : Bool}
    {cause : Malformation} :
    (prepare tree target garbled).1 = .error (.malformed cause) ↔
      malformation? garbled target.parent = some cause := by
  unfold prepare
  split
  · simp [*]
  · split_ifs
    · simp [*]
    · split <;> simp [*]

theorem write_malformed_iff {tree : FileTree} {target : Path} {text : String} {garbled : Bool}
    {cause : Malformation} :
    (write tree target text garbled).1 = .error (.malformed cause) ↔
      malformation? garbled target = some cause ∨
        malformation? garbled target = none ∧ ¬ FileTree.isPathTooLong target ∧ garbled = true ∧
          ∃ halves opened, cause = .unencodable halves ∧
            Text.Unencodable.ofText? text = some halves ∧
            tree.write target.parts .empty = .ok opened := by
  unfold write
  cases malformation? garbled target with
  | some other => simp
  | none =>
    by_cases hlong : FileTree.isPathTooLong target
    · simp [hlong]
    · simp only [if_neg hlong]
      cases garbled with
      | false =>
        cases hwrite : tree.write target.parts text.toByteArray <;> simp [hwrite]
      | true =>
        cases htext : Text.Unencodable.ofText? text with
        | none => cases hwrite : tree.write target.parts text.toByteArray <;> simp [hwrite]
        | some halves =>
          cases hwrite : tree.write target.parts .empty <;> simp [hwrite, hlong, eq_comm]

theorem mapError_toPutError_iff {answer : Except OutputError Unit} {cause : Malformation} :
    answer.mapError OutputError.toPutError = .error (.malformed cause) ↔
      answer = .error (.malformed cause) := by
  rcases answer with e | _
  · cases e <;> simp [Except.mapError, OutputError.toPutError]
  · simp [Except.mapError]

theorem stops_iff (d : OutputDirectory) (garbled : Bool) (tree : FileTree) (name text : String)
    (cause : Malformation) :
    ((d.sink garbled).put tree name text).value.1 = .error (.malformed cause) ↔
      d.Stops garbled tree name text cause := by
  rw [put_sink, mapError_toPutError_iff]
  simp only [create, Logged.bind_value]
  -- The stages of a creation in turn: the output directory, the directories of the file, the file.
  have hvalue := d.ensure_value tree
  generalize hensured : (d.ensure tree).value = ensured at hvalue
  obtain ⟨answer, ready⟩ := ensured
  rcases hvalue with hdirectory | ⟨e, herror, hsystem⟩
  · obtain rfl : answer = .ok d.path := hdirectory
    have hprepared : (prepare ready (d.pathFor name) garbled).1 = .error (.malformed cause) ↔
        malformation? garbled (d.pathFor name).parent = some cause := prepare_malformed_iff
    dsimp only
    generalize hmade : prepare ready (d.pathFor name) garbled = prepared at hprepared
    rcases prepared with ⟨e | _, made⟩
    · constructor
      · intro h
        exact .directory hensured (hprepared.mp h)
      · rintro (⟨hready, hpath⟩ | ⟨hready, hok, -⟩ | ⟨hready, hok⟩)
        all_goals
          obtain ⟨-, rfl⟩ := Prod.mk.inj (hensured.symm.trans hready)
        · exact hprepared.mpr hpath
        · simp [hmade] at hok
        · simp [hmade] at hok
    · simp only [Logged.bind_value, Logged.pure_value, write_malformed_iff]
      constructor
      · rintro (hpath | ⟨hpath, hshort, hgarbled, halves, opened, rfl, htext, hopened⟩)
        · exact .file hensured hmade hpath
        · exact .text hensured hmade hpath hshort hopened hgarbled htext
      · rintro (⟨hready, hpath⟩ | ⟨hready, hok, hpath⟩ |
          ⟨hready, hok, hpath, hshort, hopened, hg, ht⟩)
        all_goals
          obtain ⟨-, rfl⟩ := Prod.mk.inj (hensured.symm.trans hready)
        · simp at hprepared
          exact absurd hpath hprepared
        · exact .inl hpath
        · obtain ⟨-, rfl⟩ := Prod.mk.inj (hmade.symm.trans hok)
          exact .inr ⟨hpath, hshort, hg, _, _, rfl, ht, hopened⟩
  · obtain rfl : answer = .error e := herror
    constructor
    · intro h
      exact absurd (Except.error.inj h) (hsystem cause)
    · rintro (⟨hready, -⟩ | ⟨hready, -, -⟩ | ⟨hready, -⟩) <;> simp [hensured] at hready

theorem hasNul_eq_false (p : Path) :
    p.hasNul = false ↔ ∀ part ∈ p.parts, '\x00' ∉ part.toList := by
  simp [Path.hasNul]

theorem hasNul_ofText {s : String} (h : '\x00' ∉ s.toList) : (Path.ofText s).hasNul = false := by
  rw [hasNul_eq_false]
  intro part hpart hnul
  exact h (Text.mem_of_mem_splitAt (List.mem_of_mem_filter hpart) hnul).2

theorem hasNul_join {p q : Path} (hp : p.hasNul = false) (hq : q.hasNul = false) :
    (p.join q).hasNul = false := by
  rw [hasNul_eq_false] at hp hq ⊢
  unfold Path.join
  cases q.root with
  | relative =>
    intro part hpart
    rcases List.mem_append.mp hpart with hpart | hpart
    · exact hp part hpart
    · exact hq part hpart
  | _ => exact hq

theorem hasNul_foldl_join {names : List String} (hnames : ∀ name ∈ names, '\x00' ∉ name.toList)
    {p : Path} (hp : p.hasNul = false) :
    (names.foldl (fun p name => p.join (Path.ofText name)) p).hasNul = false := by
  induction names generalizing p with
  | nil => exact hp
  | cons name rest ih =>
    obtain ⟨hname, hrest⟩ := List.forall_mem_cons.mp hnames
    exact ih hrest (hasNul_join hp (hasNul_ofText hname))

theorem hasNul_pathFor {d : OutputDirectory} {name : String} (hd : d.path.hasNul = false)
    (hext : '\x00' ∉ d.extension.toList) (hname : '\x00' ∉ name.toList) :
    (d.pathFor name).hasNul = false := by
  have hpieces : ∀ piece ∈ Text.splitAt '.' name, '\x00' ∉ piece.toList := fun piece hpiece hnul =>
    hname (Text.mem_of_mem_splitAt hpiece hnul).2
  refine hasNul_foldl_join (fun piece hpiece => ?_) hd
  rcases List.mem_append.mp hpiece with hpiece | hpiece
  · exact hpieces piece (List.mem_of_mem_dropLast hpiece)
  · rw [List.mem_singleton.mp hpiece, String.toList_append, List.mem_append, not_or]
    refine ⟨?_, hext⟩
    cases hlast : (Text.splitAt '.' name).getLast? with
    | none => simp
    | some last => exact hpieces last (List.mem_of_getLast? hlast)

theorem not_stops_of_hasNul {d : OutputDirectory} {tree : FileTree} {name text : String}
    {cause : Malformation} (h : (d.pathFor name).hasNul = false) :
    ¬ d.Stops false tree name text cause := by
  have hparent : (d.pathFor name).parent.hasNul = false := by
    rw [hasNul_eq_false] at h ⊢
    exact fun part hpart => h part (List.mem_of_mem_dropLast hpart)
  rintro (⟨-, hpath⟩ | ⟨-, -, hpath⟩ | ⟨-, -, -, -, -, hgarbled, -⟩)
  · simp [malformation?, hparent] at hpath
  · simp [malformation?, h] at hpath
  · simp at hgarbled

end OutputDirectory

theorem not_mem_qualifiedName {c : Char} {package group : String} (hc : c ≠ '.')
    (hpackage : c ∉ package.toList) (hgroup : c ∉ group.toList) :
    c ∉ (qualifiedName package group).toList := by
  unfold qualifiedName
  split_ifs
  · exact hgroup
  · simp [String.toList_append, hc, hpackage, hgroup]

namespace Session

/-- A pass into an output directory is refused, or puts every group and is complete, or breaks off
at the first group that stops it. Nothing stops a pass when no name in it has a NUL character and
no text is garbled; whatever else the system refuses is told, and the other groups are put. -/
theorem run_into_directory {s : Session} (hs : s.completed = false) (source : ElementSource)
    (resources : Option Resources) (d : OutputDirectory) (garbled : Bool) (tree : FileTree) :
    let ran := s.run source resources (d.sink garbled) tree
    let package := s.packageFor resources
    let put (groups : List Group) := (d.sink garbled).putAll (s.filesOf resources groups) tree
    ((∃ e, FirstOffence (s.items source resources) e ∧
        ran.value = ⟨{ s with groups := .empty }, tree, .error (.refused e)⟩ ∧
        ran.log.filter (¬ ·.IsCalm) = [.passRefused e.message]) ∨
      ∃ ds table, PassesWith (s.items source resources) (table, none) ds ∧
        (s.Completes resources (d.sink garbled) tree table ran ∨
          ∃ front g cause, s.BreaksOffAt resources (d.sink garbled) tree table ran front g cause ∧
            d.Stops garbled (put front).2 (g.file package).1 (g.file package).2 cause)) ∧
    (garbled = false → d.path.hasNul = false → '\x00' ∉ d.extension.toList →
      '\x00' ∉ package.toList → (∀ name ∈ ran.value.session.groups.names, '\x00' ∉ name.toList) →
      ∀ cause, ran.value.outcome ≠ .error (.malformed cause)) := by
  intro ran package put
  have hends := run_ends source resources tree hs (d.quiet_sink garbled)
  constructor
  · rcases hends with hrefused | ⟨ds, table, hpass, hcompletes | ⟨front, g, cause, hbreaks⟩⟩
    · exact .inl hrefused
    · exact .inr ⟨ds, table, hpass, .inl hcompletes⟩
    · have hstops := (d.stops_iff garbled _ _ _ cause).mp hbreaks.breaks
      exact .inr ⟨ds, table, hpass, .inr ⟨front, g, cause, hbreaks, hstops⟩⟩
  · rintro rfl hd hext hpackage hnames cause hstopped
    rcases hends with ⟨e, -, hvalue, -⟩ | ⟨ds, table, -, hcompletes | ⟨front, g, other, hbreaks⟩⟩
    · simp [ran, hvalue] at hstopped
    · simp [ran, hcompletes.value] at hstopped
    · obtain ⟨back, hgroups⟩ := hbreaks.ahead
      have hg : g.name ∈ ran.value.session.groups.names := by
        rw [hbreaks.session]
        exact List.mem_map_of_mem (by rw [hgroups]; simp)
      have hname : '\x00' ∉ (g.file package).1.toList :=
        not_mem_qualifiedName (by decide) hpackage (hnames g.name hg)
      have hpath := OutputDirectory.hasNul_pathFor hd hext hname
      have hstops := (d.stops_iff false _ _ _ other).mp hbreaks.breaks
      exact OutputDirectory.not_stops_of_hasNul hpath hstops

open OutputDirectory (Sample.directory)

def Sample.twoGroups : Resources :=
  fun _ => .handed (.ofText "a.b,first,true,boolean\nc,second,false,boolean\n")

def Sample.blocked : FileTree :=
  .directory [("out", .directory [("com", .directory [("a", .file .empty)])])]

theorem sample_refused_alone :
    let ran := Sample.session.run [] (some Sample.twoGroups) (Sample.directory.sink false)
      Sample.blocked
    Sample.session.completed = false ∧ Sample.directory.path.hasNul = false ∧
    '\x00' ∉ Sample.directory.extension.toList ∧
    '\x00' ∉ (Sample.session.packageFor (some Sample.twoGroups)).toList ∧
    (∀ name ∈ ran.value.session.groups.names, '\x00' ∉ name.toList) ∧
    (∀ cause, ran.value.outcome ≠ .error (.malformed cause)) ∧
    ran.value.outcome = .ok ["com.c"] ∧ ran.value.session.completed = true ∧
    ran.log.filter (¬ ·.IsCalm) = [.sinkAsked "com.a.b",
      .groupNotWritten "com.a.b" "[Errno 17] File exists: '/out/com/a'", .sinkAsked "com.c"] := by
  intro ran
  have hpath : Sample.directory.path.hasNul = false := by decide
  have hext : '\x00' ∉ Sample.directory.extension.toList := by decide
  have hpackage : '\x00' ∉ (Sample.session.packageFor (some Sample.twoGroups)).toList := by
    decide +kernel
  have hnames : ∀ name ∈ ran.value.session.groups.names, '\x00' ∉ name.toList := by
    decide +kernel
  have hborne := (run_into_directory (s := Sample.session) rfl [] (some Sample.twoGroups)
    Sample.directory false Sample.blocked).2 rfl hpath hext hpackage hnames
  exact ⟨rfl, hpath, hext, hpackage, hnames, hborne, by decide +kernel, by decide +kernel,
    by decide +kernel⟩

def Sample.nulGroup : Resources :=
  fun _ => .handed (.ofText "a\x00b,first,true,boolean\nc,second,false,boolean\n")

/-- The NUL character in the name of the first group ends the pass, and the second group, which
could be written, is never asked for. -/
theorem sample_stopped_by_nul :
    let ran := Sample.session.run [] (some Sample.nulGroup) (Sample.directory.sink false) .empty
    ran.value.session.groups.names = ["a\x00b", "c"] ∧
    ran.value.outcome = .error (.malformed .nulInPath) ∧
    ran.value.session.completed = false ∧
    ran.log.filter (¬ ·.IsCalm) = [.sinkAsked "com.a\x00b"] ∧
    ran.value.sink.file? ["out", "com", "c.java"] = none := by
  decide +kernel

end Session

end PreferenceAccessors
