import PreferenceAccessors.Proofs.FileTree
import PreferenceAccessors.Proofs.Location
import PreferenceAccessors.Proofs.Writing

/-!
The files of the groups in an output directory. A file that is taken stands
where its name lands until another one lands there; a file that is refused
changes no file. So of the groups that land together only the last one taken is
left, although the names of all of them are returned.
-/

namespace PreferenceAccessors

namespace OutputDirectory

/-- What an attempt to write a text under these names leaves of the files of a tree. -/
structure Leaves (t : FileTree) (names : List String) (text : String)
    (attempt : Except OutputError Unit × FileTree) : Prop where
  others : ∀ other ≠ names, attempt.2.file? other = t.file? other
  taken : attempt.1 = .ok () → attempt.2.file? names = some text.toUTF8
  refused : ∀ e, attempt.1 = .error e → (∀ cause, e ≠ .malformed cause) →
    attempt.2.file? = t.file?

namespace Leaves
variable {t : FileTree} {names : List String} {text : String}

theorem of_error {e : OutputError} {after : FileTree} (h : after.file? = t.file?) :
    Leaves t names text (.error e, after) :=
  ⟨fun other _ => congrFun h other, fun hok => (nomatch hok), fun _ _ _ => h⟩

theorem of_same {made : FileTree} {attempt : Except OutputError Unit × FileTree}
    (h : Leaves made names text attempt) (hmade : made.file? = t.file?) :
    Leaves t names text attempt :=
  ⟨hmade ▸ h.others, h.taken, hmade ▸ h.refused⟩

end Leaves

theorem file?_ensure (d : OutputDirectory) (t : FileTree) :
    (d.ensure t).value.2.file? = t.file? := by
  unfold ensure
  dsimp only
  rcases t.status root d.path.parent with e | _ | bytes | entries
  · rfl
  · rfl
  · rfl
  · rcases t.status root d.path with e | _ | here
    · rfl
    · cases hmade : t.makeDirectory d.path.parts with
      | error e => rfl
      | ok made => exact FileTree.file?_makeDirectory hmade
    · rfl

theorem file?_prepare (t : FileTree) (target : Path) (garbled : Bool) :
    (prepare t target garbled).2.file? = t.file? := by
  have hmade := FileTree.file?_makeDirectories t [] target.parent.parts
  unfold prepare
  split
  · rfl
  · split_ifs
    · rfl
    · split <;> simp_all

theorem leaves_write (t : FileTree) (target : Path) (text : String) (garbled : Bool) :
    Leaves t (Path.collapse target.parts) text (write t target text garbled) := by
  unfold write
  rcases malformation? garbled target with _ | cause
  · dsimp only
    by_cases hlong : FileTree.isPathTooLong target
    · rw [if_pos hlong]
      exact .of_error rfl
    · rw [if_neg hlong]
      generalize (if garbled then Text.Unencodable.ofText? text else none) = halves
      cases hwrite : t.write target.parts (if halves.isSome then .empty else text.toUTF8) with
      | error e => exact .of_error rfl
      | ok after =>
        obtain ⟨hfound, hothers⟩ := FileTree.file?_write hwrite
        cases halves with
        | none => exact ⟨hothers, fun _ => hfound, fun e he => (nomatch he)⟩
        | some halves =>
          refine ⟨hothers, fun hok => (nomatch hok), fun e he hcause => ?_⟩
          exact absurd (Except.error.inj he).symm (hcause _)
  · exact .of_error rfl

theorem leaves_create (d : OutputDirectory) (t : FileTree) (qualified text : String)
    (garbled : Bool) :
    Leaves t (d.location qualified) text (d.create t qualified text garbled).value := by
  have hensured := d.file?_ensure t
  simp only [create, Logged.bind_value]
  generalize (d.ensure t).value = ensured at hensured
  rcases ensured with ⟨e | _, made⟩
  · exact .of_error hensured
  · have hprepared := file?_prepare made (d.pathFor qualified) garbled
    dsimp only
    generalize prepare made (d.pathFor qualified) garbled = prepared at hprepared
    rcases prepared with ⟨e | _, ready⟩
    · exact .of_error (hprepared.trans hensured)
    · exact (leaves_write ready _ text garbled).of_same (hprepared.trans hensured)

def place (d : OutputDirectory) (package : String) (g : Group) : List String :=
  d.location (qualifiedName package g.name)

/-- What the groups written, in this order, leave of the files of a tree: each has its text where
it lands, unless a later one lands there too. -/
structure Landed (d : OutputDirectory) (package : String) (written : List Group)
    (tree after : FileTree) : Prop where
  others : ∀ names, (∀ g ∈ written, names ≠ d.place package g) →
    after.file? names = tree.file? names
  last : ∀ front g back, written = front ++ g :: back →
    (∀ h ∈ back, d.place package g ≠ d.place package h) →
    after.file? (d.place package g) = some (g.render package).toUTF8

theorem exists_last_of_place (d : OutputDirectory) (package : String) {written : List Group}
    {g : Group} (hg : g ∈ written) :
    ∃ front last back, written = front ++ last :: back ∧
      d.place package last = d.place package g ∧
      ∀ h ∈ back, d.place package last ≠ d.place package h := by
  induction written generalizing g with
  | nil => exact absurd hg List.not_mem_nil
  | cons first rest ih =>
    by_cases hlater : ∃ h ∈ rest, d.place package h = d.place package g
    · obtain ⟨h, hrest, hplace⟩ := hlater
      obtain ⟨front, last, back, rfl, hlast, hback⟩ := ih hrest
      exact ⟨first :: front, last, back, rfl, hlast.trans hplace, hback⟩
    · have hnone : ∀ h ∈ rest, d.place package g ≠ d.place package h := fun h hrest hplace =>
        hlater ⟨h, hrest, hplace.symm⟩
      rcases List.mem_cons.mp hg with rfl | hrest
      · exact ⟨[], g, rest, rfl, rfl, hnone⟩
      · exact absurd rfl (hnone g hrest)

namespace Landed
variable {d : OutputDirectory} {package : String} {written : List Group}
  {tree made after : FileTree}

theorem nil : d.Landed package [] tree tree :=
  ⟨fun _ _ => rfl, fun front g back h => by simp at h⟩

theorem of_same (h : d.Landed package written made after) (hmade : made.file? = tree.file?) :
    d.Landed package written tree after :=
  ⟨hmade ▸ h.others, h.last⟩

theorem cons {g : Group} (h : d.Landed package written made after)
    (hothers : ∀ names ≠ d.place package g, made.file? names = tree.file? names)
    (htaken : made.file? (d.place package g) = some (g.render package).toUTF8) :
    d.Landed package (g :: written) tree after := by
  constructor
  · intro names hnames
    rw [h.others names fun g' hg' => hnames g' (List.mem_cons_of_mem g hg')]
    exact hothers names (hnames g List.mem_cons_self)
  · intro front g' back hwritten hback
    -- its own text is left alone by those behind it, and that of a later one is theirs to keep
    rcases List.cons_eq_append_iff.mp hwritten with ⟨rfl, heq⟩ | ⟨rest, rfl, heq⟩
    · obtain ⟨rfl, rfl⟩ := List.cons.inj heq
      rw [h.others _ hback]
      exact htaken
    · exact h.last rest g' back heq hback

theorem exists_last (h : d.Landed package written tree after) :
    ∀ g ∈ written, ∃ last ∈ written, d.place package last = d.place package g ∧
      after.file? (d.place package g) = some (last.render package).toUTF8 := by
  intro g hg
  obtain ⟨front, last, back, rfl, hplace, hback⟩ := exists_last_of_place d package hg
  refine ⟨last, by simp, hplace, ?_⟩
  rw [← hplace]
  exact h.last front last back rfl hback

theorem all (h : d.Landed package written tree after)
    (hapart : written.Pairwise fun g g' => d.place package g ≠ d.place package g') :
    ∀ g ∈ written, after.file? (d.place package g) = some (g.render package).toUTF8 := by
  intro g hg
  obtain ⟨front, back, rfl⟩ := List.append_of_mem hg
  have hback := (List.pairwise_append.mp hapart).2.1
  exact h.last front g back rfl (List.pairwise_cons.mp hback).1

end Landed

theorem put_sink (d : OutputDirectory) (garbled : Bool) (tree : FileTree)
    (qualified text : String) :
    ((d.sink garbled).put tree qualified text).value =
      ((d.create tree qualified text garbled).value.1.mapError OutputError.toPutError,
        (d.create tree qualified text garbled).value.2) := rfl

theorem landed_writeAll {d : OutputDirectory} {garbled : Bool} {package : String}
    {groups : List Group} {tree after : FileTree} {names : List String}
    (h : ((d.sink garbled).writeAll package groups tree).value = (.ok names, after)) :
    ∃ written, written.Sublist groups ∧
      names = written.map (fun g => qualifiedName package g.name) ∧
      d.Landed package written tree after := by
  induction groups generalizing tree names with
  | nil =>
    obtain ⟨hnames, rfl⟩ := Prod.mk.inj h
    exact ⟨[], .slnil, (Except.ok.inj hnames).symm, .nil⟩
  | cons g rest ih =>
    have hleaves := d.leaves_create tree (qualifiedName package g.name) (g.render package) garbled
    rw [Sink.writeAll_cons_value, Group.file, ← Group.render_eq, put_sink] at h
    generalize (d.create tree _ _ garbled).value = attempt at h hleaves
    rcases attempt with ⟨e | _, made⟩
    · cases e with
      -- the writing ends here, so it does not return
      | malformed cause => simp [Except.mapError, OutputError.toPutError] at h
      | _ =>
        have hsame : made.file? = tree.file? := hleaves.refused _ rfl (by simp)
        obtain ⟨written, hsub, hnames, hlanded⟩ := ih h
        exact ⟨written, hsub.cons g, hnames, hlanded.of_same hsame⟩
    · obtain ⟨hnames, hafter⟩ := Prod.mk.inj h
      cases hrest : ((d.sink garbled).writeAll package rest made).value.1 with
      | error cause => simp [hrest, Except.map] at hnames
      | ok more =>
        obtain ⟨written, hsub, hmore, hlanded⟩ := ih (Prod.ext hrest hafter)
        refine ⟨g :: written, hsub.cons_cons g, ?_, hlanded.cons hleaves.others (hleaves.taken rfl)⟩
        simp only [hrest, Except.map] at hnames
        rw [← Except.ok.inj hnames, hmore, List.map_cons]

/-- Where the file of a group lands is read off its name; distinct plain names land apart. After
writing, every name returned has a file. It holds the text of the last group written of those that
land together, which is its own when no two do. -/
theorem writeGroups_landed {d : OutputDirectory} (hext : IsExtension d.extension)
    (package : String) :
    (∀ group, d.location (qualifiedName package group) =
      namesBelow (Path.collapse (d.packagePath package).parts) d.extension
        (Text.splitAt '.' group)) ∧
    (∀ g h, IsPlainName g → IsPlainName h → g ≠ h →
      d.location (qualifiedName package g) ≠ d.location (qualifiedName package h)) ∧
    ∀ (garbled : Bool) (t : GroupTable) (tree after : FileTree) (names : List String),
      ((d.sink garbled).writeGroups t package tree).value = (.ok names, after) →
      ∃ written, written.Sublist t.groups ∧
        names = written.map (fun g => qualifiedName package g.name) ∧
        d.Landed package written tree after ∧
        (∀ g ∈ written, ∃ last ∈ written, d.place package last = d.place package g ∧
          after.file? (d.place package g) = some (last.render package).toUTF8) ∧
        (t.groups.Pairwise (fun g h => d.place package g ≠ d.place package h) →
          ∀ g ∈ written, after.file? (d.place package g) = some (g.render package).toUTF8) := by
  refine ⟨location_eq hext package, fun g h => location_ne hext package, ?_⟩
  intro garbled t tree after names h
  obtain ⟨written, hsub, hnames, hlanded⟩ := landed_writeAll h
  exact ⟨written, hsub, hnames, hlanded, hlanded.exists_last,
    fun hapart => hlanded.all (hapart.sublist hsub)⟩

def Sample.directory : OutputDirectory := ⟨⟨.absolute, ["out"]⟩, ".java"⟩

def Sample.written (t : GroupTable) : Except Malformation (List String) × FileTree :=
  ((Sample.directory.sink false).writeGroups t "com" .empty).value

def Sample.apart : GroupTable := ⟨[.new "a.b", .new "c"]⟩

theorem sample_landed :
    IsExtension Sample.directory.extension ∧ IsPlainName "a.b" ∧ IsPlainName "c" ∧
    Sample.directory.location (qualifiedName "com" "a.b") ≠
      Sample.directory.location (qualifiedName "com" "c") ∧
    (Sample.written Sample.apart).1 = .ok ["com.a.b", "com.c"] ∧
    ∃ written, written.Sublist Sample.apart.groups ∧
      written.map (fun g => qualifiedName "com" g.name) = ["com.a.b", "com.c"] ∧
      Sample.directory.Landed "com" written .empty (Sample.written Sample.apart).2 ∧
      ∀ g ∈ written, (Sample.written Sample.apart).2.file? (Sample.directory.place "com" g) =
        some (g.render "com").toUTF8 := by
  have hext : IsExtension Sample.directory.extension := ⟨by decide, by decide⟩
  have hfirst : IsPlainName "a.b" := by decide +kernel
  have hlast : IsPlainName "c" := by decide +kernel
  have hnames : (Sample.written Sample.apart).1 = .ok ["com.a.b", "com.c"] := by decide +kernel
  have hvalue : Sample.written Sample.apart =
      (.ok ["com.a.b", "com.c"], (Sample.written Sample.apart).2) := by
    rw [← hnames]
  obtain ⟨-, hapart, hwritten⟩ := writeGroups_landed hext "com"
  have hne := hapart _ _ hfirst hlast (by decide)
  obtain ⟨written, hsub, hlist, hlanded, -, hall⟩ :=
    hwritten false Sample.apart .empty _ _ hvalue
  have hplaces : Sample.apart.groups.Pairwise fun g h =>
      Sample.directory.place "com" g ≠ Sample.directory.place "com" h :=
    List.pairwise_pair.mpr hne
  exact ⟨hext, hfirst, hlast, hne, hnames, written, hsub, hlist.symm, hlanded, hall hplaces⟩

def Sample.together : GroupTable := ⟨[.new "a.b", .new "a/b"]⟩

/-- The names of both groups are returned, and the first one's text is lost. -/
theorem sample_overwritten :
    "a.b" ≠ "a/b" ∧ Text.isBlankText "a.b" = false ∧ Text.isBlankText "a/b" = false ∧
    Sample.directory.pathFor (qualifiedName "com" "a.b") =
      Sample.directory.pathFor (qualifiedName "com" "a/b") ∧
    (Sample.written Sample.together).1 = .ok ["com.a.b", "com.a/b"] ∧
    (Sample.written Sample.together).2.file?
        (Sample.directory.location (qualifiedName "com" "a.b")) =
      some ((Group.new "a/b").render "com").toUTF8 ∧
    (Group.new "a/b").render "com" ≠ (Group.new "a.b").render "com" := by
  decide +kernel

end OutputDirectory

end PreferenceAccessors
