import PreferenceAccessors.Proofs.Location

/-!
Whether a file stays below the output directory. The points of a name are cut
away before its pieces become names, so no name goes up. But a piece may begin
with a slash, and from the last such piece on the path is put together without
the output directory: the file is where that piece says.
-/

namespace PreferenceAccessors

attribute [ext] Path

namespace Path

/-- All the names of `q` and then more, none of which goes up. -/
def IsStrictlyBelow (p q : Path) : Prop :=
  p.root = q.root ∧ ∃ names, names ≠ [] ∧ ".." ∉ names ∧ p.parts = q.parts ++ names

theorem isStrictlyBelow_iff {p q : Path} (h : ".." ∉ p.parts) :
    p.IsStrictlyBelow q ↔ p.root = q.root ∧ q.parts <+: p.parts ∧ q.parts ≠ p.parts := by
  refine and_congr_right fun _ => ?_
  constructor
  · rintro ⟨names, hne, -, hparts⟩
    rw [hparts]
    exact ⟨List.prefix_append q.parts names, by simpa using hne⟩
  · rintro ⟨⟨names, hparts⟩, hne⟩
    refine ⟨names, ?_, fun hup => h (hparts ▸ List.mem_append_right q.parts hup), hparts.symm⟩
    rintro rfl
    exact hne (by simpa using hparts)

theorem rootOf_eq (cs : List Char) :
    rootOf cs = if (cs.takeWhile (· = '/')).length = 0 then .relative
      else if (cs.takeWhile (· = '/')).length = 2 then .doubled else .absolute := by
  have hstop : ∀ rest : List Char, (∀ tail, rest ≠ '/' :: tail) →
      rest.takeWhile (· = '/') = [] := by
    intro rest h
    cases rest with
    | nil => rfl
    | cons c tail =>
      have hc : c ≠ '/' := fun hc => h tail (hc ▸ rfl)
      simp [hc]
  fun_cases rootOf cs with
  | case1 => simp
  | case2 rest h => simp [hstop rest h]
  | case3 rest _ h => simp [hstop rest h]
  | case4 _ _ _ h => simp [hstop cs h]

theorem rootOf_append (cs : List Char) {es : List Char} (h : '/' ∉ es) :
    rootOf (cs ++ es) = rootOf cs := by
  have hnone : es.takeWhile (· = '/') = [] := by
    cases es with
    | nil => rfl
    | cons e rest =>
      have he : e ≠ '/' := fun he => h (he ▸ List.mem_cons_self)
      simp [he]
  have hslashes : (cs ++ es).takeWhile (· = '/') = cs.takeWhile (· = '/') := by
    rw [List.takeWhile_append]
    split_ifs with hall
    · rw [hnone, List.append_nil]
      exact ((List.takeWhile_prefix _).eq_of_length hall).symm
    · rfl
  rw [rootOf_eq, hslashes, ← rootOf_eq]

theorem root_join (p : Path) (s : String) :
    (p.join (ofText s)).root = if IsRooted s then rootOf s.toList else p.root := by
  have hroot := rootOf_eq_relative s
  have hs : (ofText s).root = rootOf s.toList := rfl
  unfold join
  split_ifs with h
  · cases hcase : (ofText s).root with
    | relative => exact absurd h (hroot.mp hcase)
    | absolute => exact hs
    | doubled => exact hs
  · rw [hs, hroot.mpr h]

theorem root_foldl_join (p : Path) {names : List String} (h : ∀ name ∈ names, ¬ IsRooted name) :
    (names.foldl (fun p name => p.join (ofText name)) p).root = p.root := by
  induction names generalizing p with
  | nil => rfl
  | cons name rest ih =>
    rw [List.foldl_cons, ih _ fun later hlater => h later (List.mem_cons_of_mem name hlater),
      root_join, if_neg (h name List.mem_cons_self)]

end Path

namespace OutputDirectory

theorem isExtension_default : IsExtension defaultExtension := ⟨by decide, by decide⟩

section Extension
variable {extension : String} (hext : IsExtension extension)
include hext

theorem fileNames_ne_nil (pieces : List String) : fileNames extension pieces ≠ [] := by
  have hlast : (pieces.flatMap (Text.splitAt '/')).getLast?.getD "" ++ extension ≠ "" := by
    intro hempty
    have hproper := hext.proper
    simp [(String.append_eq_empty_iff.mp hempty).2] at hproper
  have hmem : (pieces.flatMap (Text.splitAt '/')).getLast?.getD "" ++ extension ∈
      fileNames extension pieces := by
    refine List.mem_filter.mpr ⟨List.mem_append_right _ (List.mem_singleton_self _), ?_⟩
    exact decide_eq_true hlast
  exact List.ne_nil_of_mem hmem

theorem not_isRooted_extended {pieces : List String} (hne : pieces ≠ [])
    (h : ∀ piece ∈ pieces, ¬ IsRooted piece) :
    ∀ name ∈ extended extension pieces, ¬ IsRooted name := by
  intro name hname
  rcases mem_extended hne hname with hmem | ⟨last, hlast, rfl⟩
  · exact h name hmem
  · rw [hext.isRooted_append]
    exact h last hlast

theorem root_foldl_of_isRooted (p : Path) (front : List String) {piece : String}
    {rest : List String} (hpiece : IsRooted piece) (hrest : ∀ later ∈ rest, ¬ IsRooted later) :
    ((extended extension (front ++ piece :: rest)).foldl (fun p name => p.join (Path.ofText name))
      p).root = Path.rootOf piece.toList := by
  rw [extended_append front (List.cons_ne_nil piece rest), List.foldl_append]
  cases rest with
  | nil =>
    have hrooted := (hext.isRooted_append piece).mpr hpiece
    have hlast : extended extension [piece] = [piece ++ extension] := rfl
    rw [hlast, List.foldl_cons, List.foldl_nil, Path.root_join, if_pos hrooted,
      String.toList_append, Path.rootOf_append _ hext.noSlash]
  | cons later others =>
    have hne := List.cons_ne_nil later others
    rw [extended_cons piece hne, List.foldl_cons,
      Path.root_foldl_join _ (not_isRooted_extended hext hne hrest), Path.root_join, if_pos hpiece]

end Extension

theorem exists_last_isRooted {pieces : List String} (h : ∃ piece ∈ pieces, IsRooted piece) :
    ∃ front piece rest, pieces = front ++ piece :: rest ∧ IsRooted piece ∧
      ∀ later ∈ rest, ¬ IsRooted later := by
  induction pieces with
  | nil => simp at h
  | cons first others ih =>
    by_cases hlater : ∃ piece ∈ others, IsRooted piece
    · obtain ⟨front, piece, rest, rfl, hpiece, hrest⟩ := ih hlater
      exact ⟨first :: front, piece, rest, rfl, hpiece, hrest⟩
    · have hfirst : IsRooted first := by simpa [hlater] using h
      exact ⟨[], first, others, rfl, hfirst, by simpa using hlater⟩

section PathFor
variable {d : OutputDirectory} (hext : IsExtension d.extension) {qualified : String}

theorem not_mem_piece (qualified : String) :
    ∀ piece ∈ Text.splitAt '.' qualified, '.' ∉ piece.toList :=
  fun _ hpiece hpoint => (Text.mem_of_mem_splitAt hpiece hpoint).1 rfl

include hext

/-- Where no piece starts again, the names are put below the output directory. -/
theorem pathFor_eq_below (h : ∀ piece ∈ Text.splitAt '.' qualified, ¬ IsRooted piece) :
    d.pathFor qualified =
      ⟨d.path.root, d.path.parts ++ fileNames d.extension (Text.splitAt '.' qualified)⟩ := by
  have hne := Text.splitAt_ne_nil '.' qualified
  have hroot := Path.root_foldl_join d.path (not_isRooted_extended hext hne h)
  have hparts := parts_foldl_join hext d.path hne (not_mem_piece qualified)
  rw [namesBelow, rooted?_eq_none_iff.mpr h] at hparts
  exact Path.ext hroot hparts

/-- Otherwise the last such piece and the ones after it are the whole path. -/
theorem pathFor_eq_of_isRooted {front rest : List String} {piece : String}
    (hsplit : Text.splitAt '.' qualified = front ++ piece :: rest) (hpiece : IsRooted piece)
    (hrest : ∀ later ∈ rest, ¬ IsRooted later) :
    d.pathFor qualified =
      ⟨Path.rootOf piece.toList, fileNames d.extension (piece :: rest)⟩ := by
  have hne := Text.splitAt_ne_nil '.' qualified
  have hroot := root_foldl_of_isRooted hext d.path front hpiece hrest
  have hparts := parts_foldl_join hext d.path hne (not_mem_piece qualified)
  rw [← hsplit] at hroot
  have hrooted : rooted? (Text.splitAt '.' qualified) = some (piece :: rest) :=
    hsplit ▸ rooted?_append front hpiece hrest
  rw [namesBelow, hrooted] at hparts
  exact Path.ext hroot hparts

end PathFor

/-- A file is strictly below the output directory, unless a piece of its name starts again at the
root. From the last such piece on the path is made without the output directory, and it is below it
only if the pieces spell out its names. -/
theorem pathFor_isStrictlyBelow {d : OutputDirectory} (hext : IsExtension d.extension)
    (package group : String) :
    ((∀ piece ∈ Text.splitAt '.' (qualifiedName package group), ¬ IsRooted piece) ∧
        (d.pathFor (qualifiedName package group)).IsStrictlyBelow d.path) ∨
      ∃ front piece rest,
        Text.splitAt '.' (qualifiedName package group) = front ++ piece :: rest ∧
        IsRooted piece ∧ (∀ later ∈ rest, ¬ IsRooted later) ∧
        d.pathFor (qualifiedName package group) =
          ⟨Path.rootOf piece.toList, fileNames d.extension (piece :: rest)⟩ ∧
        ((d.pathFor (qualifiedName package group)).IsStrictlyBelow d.path ↔
          Path.rootOf piece.toList = d.path.root ∧
            d.path.parts <+: fileNames d.extension (piece :: rest) ∧
            d.path.parts ≠ fileNames d.extension (piece :: rest)) := by
  have hpoints := not_mem_piece (qualifiedName package group)
  by_cases h : ∃ piece ∈ Text.splitAt '.' (qualifiedName package group), IsRooted piece
  · obtain ⟨front, piece, rest, hsplit, hpiece, hrest⟩ := exists_last_isRooted h
    have hpath := pathFor_eq_of_isRooted hext hsplit hpiece hrest
    have hup : ".." ∉ fileNames d.extension (piece :: rest) := by
      refine not_mem_fileNames hext (List.cons_ne_nil piece rest) fun later hlater => ?_
      exact hpoints later (hsplit ▸ List.mem_append_right front hlater)
    refine .inr ⟨front, piece, rest, hsplit, hpiece, hrest, hpath, ?_⟩
    rw [hpath]
    exact Path.isStrictlyBelow_iff hup
  · have hnone : ∀ piece ∈ Text.splitAt '.' (qualifiedName package group), ¬ IsRooted piece := by
      simpa using h
    refine .inl ⟨hnone, ?_⟩
    rw [pathFor_eq_below hext hnone]
    exact ⟨rfl, _, fileNames_ne_nil hext _,
      not_mem_fileNames hext (Text.splitAt_ne_nil '.' _) hpoints, rfl⟩

def Sample.out : OutputDirectory := ⟨⟨.absolute, ["out"]⟩, defaultExtension⟩

theorem sample_isStrictlyBelow :
    IsExtension Sample.out.extension ∧
      (Sample.out.pathFor (qualifiedName "com" "..a//..b/.c")).IsStrictlyBelow Sample.out.path := by
  have hnone : ∀ piece ∈ Text.splitAt '.' (qualifiedName "com" "..a//..b/.c"),
      ¬ IsRooted piece := by
    decide +kernel
  have hext : IsExtension Sample.out.extension := isExtension_default
  refine ⟨hext, ?_⟩
  rcases pathFor_isStrictlyBelow hext "com" "..a//..b/.c" with
    ⟨-, hbelow⟩ | ⟨front, piece, rest, hsplit, hpiece, -⟩
  · exact hbelow
  · have hmem : piece ∈ Text.splitAt '.' (qualifiedName "com" "..a//..b/.c") := by simp [hsplit]
    exact absurd hpiece (hnone piece hmem)

/-- A group whose name begins with a slash is written wherever it says. -/
theorem sample_not_isStrictlyBelow :
    Sample.out.pathFor (qualifiedName "com" "/etc/x") = ⟨.absolute, ["etc", "x.java"]⟩ ∧
      ¬ (Sample.out.pathFor (qualifiedName "com" "/etc/x")).IsStrictlyBelow Sample.out.path := by
  have hpath : Sample.out.pathFor (qualifiedName "com" "/etc/x") =
      ⟨.absolute, ["etc", "x.java"]⟩ := by
    decide +kernel
  refine ⟨hpath, ?_⟩
  rw [hpath]
  rintro ⟨-, names, -, -, hparts⟩
  exact absurd (List.cons.inj hparts).1 (by decide)

end OutputDirectory

end PreferenceAccessors
