import Mathlib.Tactic
import PreferenceAccessors.OutputDirectory

/-!
Where the file of a group lands below an output directory. The name of the group
is cut at its points and the pieces at their slashes; empty words are dropped,
except for the last one, which has the extension. A piece that begins with a
slash starts again at the root, whatever came before it.
-/

namespace PreferenceAccessors

namespace Text

theorem pieces_eq_splitOn (separator : Char) (cs : List Char) :
    pieces separator cs = cs.splitOn separator := by
  induction cs with
  | nil => rfl
  | cons c rest ih =>
    rw [List.splitOn_cons_eq_if_modifyHead, pieces, ih]
    by_cases h : c = separator
    · simp [h]
    · cases hrest : rest.splitOn separator with
      | nil => exact absurd hrest (List.splitOn_ne_nil _ _)
      | cons piece others => simp [h]

theorem pieces_append (separator : Char) (as bs : List Char) :
    pieces separator (as ++ separator :: bs) = pieces separator as ++ pieces separator bs := by
  simp only [pieces_eq_splitOn, List.splitOn_append_cons_self]

theorem mem_of_mem_pieces {separator c : Char} {cs piece : List Char}
    (h : piece ∈ pieces separator cs) (hc : c ∈ piece) : c ≠ separator ∧ c ∈ cs := by
  induction cs generalizing piece with
  | nil => simp_all [pieces]
  | cons d rest ih =>
    rw [pieces] at h
    split_ifs at h with hd
    · rcases List.mem_cons.mp h with rfl | h
      · exact absurd hc List.not_mem_nil
      · exact (ih h hc).imp_right (List.mem_cons_of_mem d)
    · cases hrest : pieces separator rest with
      | nil => exact absurd hrest (pieces_ne_nil separator rest)
      | cons first others =>
        rw [hrest] at h ih
        rcases List.mem_cons.mp h with rfl | h
        · rcases List.mem_cons.mp hc with rfl | hc
          · exact ⟨hd, List.mem_cons_self⟩
          · exact (ih List.mem_cons_self hc).imp_right (List.mem_cons_of_mem d)
        · exact (ih (List.mem_cons_of_mem first h) hc).imp_right (List.mem_cons_of_mem d)

theorem exists_pieces_concat (separator : Char) (as : List Char) :
    ∃ front last, ∀ bs, separator ∉ bs → pieces separator (as ++ bs) = front ++ [last ++ bs] := by
  induction as with
  | nil =>
    refine ⟨[], [], fun bs h => ?_⟩
    rw [List.nil_append, pieces_eq_splitOn, List.splitOn_eq_singleton h]
    rfl
  | cons c rest ih =>
    obtain ⟨front, last, hrest⟩ := ih
    by_cases hc : c = separator
    · exact ⟨[] :: front, last, fun bs h => by simp [pieces, hc, hrest bs h]⟩
    · cases front with
      | nil => exact ⟨[], c :: last, fun bs h => by simp [pieces, hc, hrest bs h]⟩
      | cons first others =>
        exact ⟨(c :: first) :: others, last, fun bs h => by simp [pieces, hc, hrest bs h]⟩

theorem exists_splitAt_concat (separator : Char) (s : String) :
    ∃ front last, splitAt separator s = front ++ [last] ∧
      ∀ t : String, separator ∉ t.toList → splitAt separator (s ++ t) = front ++ [last ++ t] := by
  obtain ⟨front, last, h⟩ := exists_pieces_concat separator s.toList
  refine ⟨front.map String.ofList, String.ofList last, ?_, fun t ht => ?_⟩
  · have hs := h [] List.not_mem_nil
    rw [List.append_nil, List.append_nil] at hs
    simp [splitAt, hs]
  · simp [splitAt, h t.toList ht]

theorem splitAt_ne_nil (separator : Char) (s : String) : splitAt separator s ≠ [] := by
  simp [splitAt, pieces_ne_nil]

theorem mem_of_mem_splitAt {separator c : Char} {s piece : String}
    (h : piece ∈ splitAt separator s) (hc : c ∈ piece.toList) : c ≠ separator ∧ c ∈ s.toList := by
  obtain ⟨cs, hcs, rfl⟩ := List.mem_map.mp h
  rw [String.toList_ofList] at hc
  exact mem_of_mem_pieces hcs hc

theorem splitAt_of_not_mem {separator : Char} {s : String} (h : separator ∉ s.toList) :
    splitAt separator s = [s] := by
  rw [splitAt, pieces_eq_splitOn, List.splitOn_eq_singleton h]
  simp

theorem splitAt_injective (separator : Char) : Function.Injective (splitAt separator) := by
  intro s t h
  have hinj : Function.Injective String.ofList := fun _ _ => String.ofList_injective
  have hpieces := hinj.list_map h
  rw [← String.toList_inj, ← intercalate_pieces separator s.toList, hpieces, intercalate_pieces]

theorem splitAt_qualifiedName {package : String} (h : package ≠ "") (group : String) :
    splitAt '.' (qualifiedName package group) = splitAt '.' package ++ splitAt '.' group := by
  have hchars : (qualifiedName package group).toList = package.toList ++ '.' :: group.toList := by
    simp [qualifiedName, h]
  rw [splitAt, hchars, pieces_append, List.map_append]
  rfl

end Text

/-- An extension that stays within one name of a path and is more than a name of points. -/
structure IsExtension (extension : String) : Prop where
  noSlash : '/' ∉ extension.toList
  proper : extension ∉ ["", ".", ".."]

/-- A piece that starts again at the root. -/
def IsRooted (piece : String) : Prop := piece.toList.head? = some '/'

instance (piece : String) : Decidable (IsRooted piece) :=
  inferInstanceAs (Decidable (piece.toList.head? = some '/'))

theorem not_isRooted {piece : String} (h : '/' ∉ piece.toList) : ¬ IsRooted piece :=
  fun hrooted => h (List.mem_of_head? hrooted)

def extended (extension : String) (names : List String) : List String :=
  names.dropLast ++ [names.getLast?.getD "" ++ extension]

section Extended
variable {extension : String}

theorem extended_append (as : List String) {bs : List String} (h : bs ≠ []) :
    extended extension (as ++ bs) = as ++ extended extension bs := by
  rw [extended, extended, List.dropLast_append_of_ne_nil h, List.getLast?_append_of_ne_nil as h,
    List.append_assoc]

theorem extended_cons (a : String) {bs : List String} (h : bs ≠ []) :
    extended extension (a :: bs) = a :: extended extension bs :=
  extended_append [a] h

theorem mem_extended {names : List String} (h : names ≠ []) {name : String}
    (hname : name ∈ extended extension names) :
    name ∈ names ∨ ∃ last ∈ names, name = last ++ extension := by
  rcases List.mem_append.mp hname with hfront | hlast
  · exact .inl (List.dropLast_subset names hfront)
  · rw [List.getLast?_eq_some_getLast h, Option.getD_some] at hlast
    exact .inr ⟨names.getLast h, List.getLast_mem h, List.mem_singleton.mp hlast⟩

theorem eq_of_extended_eq {as bs : List String} (has : as ≠ []) (hbs : bs ≠ [])
    (h : extended extension as = extended extension bs) : as = bs := by
  obtain ⟨hfront, hlast⟩ := List.append_inj' h rfl
  have hend : as.getLast has = bs.getLast hbs := by
    simpa [List.getLast?_eq_some_getLast has, List.getLast?_eq_some_getLast hbs] using hlast
  rw [← List.dropLast_append_getLast has, ← List.dropLast_append_getLast hbs, hfront, hend]

end Extended

namespace IsExtension
variable {extension : String} (h : IsExtension extension)
include h

theorem append_proper {last : String} (hlast : '.' ∉ last.toList) :
    last ++ extension ∉ ["", ".", ".."] := by
  by_cases hempty : last = ""
  · rw [hempty, String.empty_append]
    exact h.proper
  · intro hmem
    obtain ⟨c, cs, hcs⟩ := List.exists_cons_of_ne_nil (mt String.toList_eq_nil_iff.mp hempty)
    have hhead : (last ++ extension).toList.head? = some c := by
      rw [String.toList_append, hcs]
      rfl
    have hc : c ≠ '.' := by
      rintro rfl
      exact hlast (hcs ▸ List.mem_cons_self)
    simp only [List.mem_cons, List.not_mem_nil, or_false] at hmem
    rcases hmem with heq | heq | heq <;> rw [heq] at hhead <;> simp [Ne.symm hc] at hhead

theorem ne_of_mem_extended {names : List String} (hne : names ≠ [])
    (hpoints : ∀ name ∈ names, '.' ∉ name.toList) :
    ∀ name ∈ extended extension names, name ≠ "." ∧ name ≠ ".." := by
  intro name hname
  rcases mem_extended hne hname with hmem | ⟨last, hlast, rfl⟩
  · constructor <;> rintro rfl <;> exact hpoints _ hmem (by decide)
  · have hproper := h.append_proper (hpoints last hlast)
    simp only [List.mem_cons, List.not_mem_nil, or_false, not_or] at hproper
    exact hproper.2

theorem isRooted_append (piece : String) : IsRooted (piece ++ extension) ↔ IsRooted piece := by
  unfold IsRooted
  rw [String.toList_append]
  cases hpiece : piece.toList with
  | nil =>
    refine iff_of_false (fun hhead => h.noSlash ?_) (by simp)
    exact List.mem_of_head? hhead
  | cons c cs => simp

theorem splitAt_append (piece : String) :
    Text.splitAt '/' (piece ++ extension) = extended extension (Text.splitAt '/' piece) := by
  obtain ⟨front, last, hsplit, happend⟩ := Text.exists_splitAt_concat '/' piece
  rw [happend extension h.noSlash, hsplit]
  simp [extended]

end IsExtension

namespace Path

theorem rootOf_eq_relative (s : String) : rootOf s.toList = .relative ↔ ¬ IsRooted s := by
  rw [IsRooted]
  cases s.toList with
  | nil => simp [rootOf]
  | cons c cs =>
    rw [List.head?_cons]
    unfold rootOf
    split <;> simp_all

theorem parts_join (p : Path) (s : String) :
    (p.join (ofText s)).parts =
      if IsRooted s then (ofText s).parts else p.parts ++ (ofText s).parts := by
  have hroot := rootOf_eq_relative s
  unfold join
  split_ifs with h
  · cases hs : (ofText s).root with
    | relative => exact absurd h (hroot.mp hs)
    | absolute => rfl
    | doubled => rfl
  · have hs : (ofText s).root = .relative := hroot.mpr h
    rw [hs]

theorem parts_ofText {s : String} (h : ∀ name ∈ Text.splitAt '/' s, name ≠ ".") :
    (ofText s).parts = (Text.splitAt '/' s).filter (· ≠ "") :=
  List.filter_congr fun name hname => by simp [h name hname]

theorem collapse_append (above : List String) {below : List String} (h : ".." ∉ below) :
    collapse (above ++ below) = collapse above ++ below := by
  unfold collapse
  rw [List.foldl_append]
  generalize above.foldl _ [] = done
  induction below generalizing done with
  | nil => rw [List.foldl_nil, List.append_nil]
  | cons name rest ih =>
    obtain ⟨hname, hrest⟩ := not_or.mp (mt List.mem_cons.mpr h)
    rw [List.foldl_cons, if_neg (Ne.symm hname), ih hrest, List.append_assoc, List.singleton_append]

end Path

namespace OutputDirectory

def fileNames (extension : String) (pieces : List String) : List String :=
  (extended extension (pieces.flatMap (Text.splitAt '/'))).filter (· ≠ "")

/-- From the last piece on that starts again at the root. -/
def rooted? : List String → Option (List String)
  | [] => none
  | piece :: rest => rooted? rest <|> if IsRooted piece then some (piece :: rest) else none

def namesBelow (above : List String) (extension : String) (pieces : List String) : List String :=
  match rooted? pieces with
  | some rooted => fileNames extension rooted
  | none => above ++ fileNames extension pieces

theorem flatMap_splitAt_ne_nil {pieces : List String} (h : pieces ≠ []) :
    pieces.flatMap (Text.splitAt '/') ≠ [] := by
  obtain ⟨first, others, rfl⟩ := List.exists_cons_of_ne_nil h
  simp [Text.splitAt_ne_nil]

section Names
variable {extension : String} (hext : IsExtension extension)

theorem fileNames_cons (piece : String) {rest : List String} (hrest : rest ≠ []) :
    fileNames extension (piece :: rest) =
      (Text.splitAt '/' piece).filter (· ≠ "") ++ fileNames extension rest := by
  rw [fileNames, List.flatMap_cons, extended_append _ (flatMap_splitAt_ne_nil hrest),
    List.filter_append]
  rfl

theorem namesBelow_cons (above : List String) (piece : String) {rest : List String}
    (hrest : rest ≠ []) :
    namesBelow above extension (piece :: rest) =
      namesBelow (if IsRooted piece then (Text.splitAt '/' piece).filter (· ≠ "") else
        above ++ (Text.splitAt '/' piece).filter (· ≠ "")) extension rest := by
  unfold namesBelow
  rw [rooted?]
  cases rooted? rest with
  | some rooted => rfl
  | none => by_cases h : IsRooted piece <;> simp [h, fileNames_cons piece hrest]

theorem rooted?_suffix {pieces rooted : List String} (h : rooted? pieces = some rooted) :
    rooted <:+ pieces ∧ rooted ≠ [] := by
  induction pieces with
  | nil => simp [rooted?] at h
  | cons piece rest ih =>
    rw [rooted?] at h
    cases hrest : rooted? rest with
    | some _ =>
      rw [hrest] at h
      exact (ih (hrest.trans h)).imp_left fun hsuffix => hsuffix.trans (List.suffix_cons piece rest)
    | none =>
      rw [hrest] at h
      by_cases hpiece : IsRooted piece
      · obtain rfl : piece :: rest = rooted := by simpa [hpiece] using h
        exact ⟨List.suffix_rfl, List.cons_ne_nil piece rest⟩
      · simp [hpiece] at h

theorem rooted?_eq_none_iff {pieces : List String} :
    rooted? pieces = none ↔ ∀ piece ∈ pieces, ¬ IsRooted piece := by
  induction pieces with
  | nil => simp [rooted?]
  | cons piece rest ih =>
    rw [rooted?, List.forall_mem_cons, ← ih]
    cases rooted? rest with
    | none => by_cases h : IsRooted piece <;> simp [h]
    | some rooted => simp

theorem rooted?_append (front : List String) {piece : String} {rest : List String}
    (hpiece : IsRooted piece) (hrest : ∀ later ∈ rest, ¬ IsRooted later) :
    rooted? (front ++ piece :: rest) = some (piece :: rest) := by
  induction front with
  | nil =>
    rw [List.nil_append, rooted?, rooted?_eq_none_iff.mpr hrest, if_pos hpiece]
    rfl
  | cons first others ih =>
    rw [List.cons_append, rooted?, ih]
    rfl

include hext

theorem parts_ofText_append {piece : String} (hpoints : '.' ∉ piece.toList) :
    (Path.ofText (piece ++ extension)).parts = fileNames extension [piece] := by
  have hne := hext.ne_of_mem_extended (Text.splitAt_ne_nil '/' piece)
    fun name hname hpoint => hpoints (Text.mem_of_mem_splitAt hname hpoint).2
  rw [← hext.splitAt_append] at hne
  rw [Path.parts_ofText fun name hname => (hne name hname).1, hext.splitAt_append, fileNames,
    List.flatMap_singleton]

theorem parts_foldl_join (p : Path) {pieces : List String} (hne : pieces ≠ [])
    (hpoints : ∀ piece ∈ pieces, '.' ∉ piece.toList) :
    ((extended extension pieces).foldl (fun p name => p.join (Path.ofText name)) p).parts =
      namesBelow p.parts extension pieces := by
  -- the path so far is any, since a piece that starts at the root forgets it
  induction pieces generalizing p with
  | nil => exact absurd rfl hne
  | cons piece rest ih =>
    have hpiece := hpoints piece List.mem_cons_self
    by_cases hrest : rest = []
    · subst hrest
      have hparts := Path.parts_join p (piece ++ extension)
      rw [parts_ofText_append hext hpiece] at hparts
      simp only [hext.isRooted_append] at hparts
      refine Eq.trans hparts ?_
      by_cases h : IsRooted piece <;> simp [namesBelow, rooted?, h]
    · have hnames : (Path.ofText piece).parts = (Text.splitAt '/' piece).filter (· ≠ "") := by
        refine Path.parts_ofText fun name hname => ?_
        rintro rfl
        exact hpiece (Text.mem_of_mem_splitAt hname (by decide)).2
      rw [extended_cons piece hrest, List.foldl_cons,
        ih _ hrest fun piece hpiece => hpoints piece (List.mem_cons_of_mem _ hpiece),
        Path.parts_join, hnames, namesBelow_cons _ _ hrest]

theorem not_mem_fileNames {pieces : List String} (hne : pieces ≠ [])
    (hpoints : ∀ piece ∈ pieces, '.' ∉ piece.toList) : ".." ∉ fileNames extension pieces := by
  have hcuts : ∀ name ∈ pieces.flatMap (Text.splitAt '/'), '.' ∉ name.toList := by
    intro name hname hpoint
    obtain ⟨piece, hpiece, hname⟩ := List.mem_flatMap.mp hname
    exact hpoints piece hpiece (Text.mem_of_mem_splitAt hname hpoint).2
  intro hmem
  have hproper := hext.ne_of_mem_extended (flatMap_splitAt_ne_nil hne) hcuts
  exact (hproper ".." (List.mem_of_mem_filter hmem)).2 rfl

theorem collapse_namesBelow (above : List String) {pieces : List String} (hne : pieces ≠ [])
    (hpoints : ∀ piece ∈ pieces, '.' ∉ piece.toList) :
    Path.collapse (namesBelow above extension pieces) =
      namesBelow (Path.collapse above) extension pieces := by
  unfold namesBelow
  cases hrooted : rooted? pieces with
  | none => exact Path.collapse_append above (not_mem_fileNames hext hne hpoints)
  | some rooted =>
    obtain ⟨hsuffix, hrooted⟩ := rooted?_suffix hrooted
    exact Path.collapse_append [] (not_mem_fileNames hext hrooted fun piece hpiece =>
      hpoints piece (hsuffix.subset hpiece))

end Names

def packagePath (d : OutputDirectory) (package : String) : Path :=
  if package = "" then d.path
  else (Text.splitAt '.' package).foldl (fun p name => p.join (Path.ofText name)) d.path

theorem pathFor_qualifiedName (d : OutputDirectory) (package group : String) :
    d.pathFor (qualifiedName package group) =
      (extended d.extension (Text.splitAt '.' group)).foldl
        (fun p name => p.join (Path.ofText name)) (d.packagePath package) := by
  change (extended d.extension _).foldl _ d.path = _
  by_cases h : package = ""
  · simp [packagePath, qualifiedName, h]
  · rw [Text.splitAt_qualifiedName h, extended_append _ (Text.splitAt_ne_nil '.' group),
      List.foldl_append, packagePath, if_neg h]

/-- The names a file of this qualified name is written under, without two dots. -/
def location (d : OutputDirectory) (qualified : String) : List String :=
  Path.collapse (d.pathFor qualified).parts

theorem location_eq {d : OutputDirectory} (hext : IsExtension d.extension)
    (package group : String) :
    d.location (qualifiedName package group) =
      namesBelow (Path.collapse (d.packagePath package).parts) d.extension
        (Text.splitAt '.' group) := by
  have hne := Text.splitAt_ne_nil '.' group
  have hpoints : ∀ piece ∈ Text.splitAt '.' group, '.' ∉ piece.toList := fun piece hpiece hpoint =>
    (Text.mem_of_mem_splitAt hpiece hpoint).1 rfl
  rw [location, pathFor_qualifiedName, parts_foldl_join hext _ hne hpoints,
    collapse_namesBelow hext _ hne hpoints]

end OutputDirectory

/-- Words between single points, without slashes. -/
def IsPlainName (name : String) : Prop :=
  ∀ piece ∈ Text.splitAt '.' name, piece ≠ "" ∧ '/' ∉ piece.toList

instance (name : String) : Decidable (IsPlainName name) :=
  inferInstanceAs (Decidable (∀ piece ∈ Text.splitAt '.' name, piece ≠ "" ∧ '/' ∉ piece.toList))

namespace OutputDirectory

theorem fileNames_plain {extension : String} {pieces : List String} (hne : pieces ≠ [])
    (h : ∀ piece ∈ pieces, piece ≠ "" ∧ '/' ∉ piece.toList) :
    fileNames extension pieces = extended extension pieces := by
  have hcuts : pieces.flatMap (Text.splitAt '/') = pieces := by
    calc pieces.flatMap (Text.splitAt '/')
      _ = pieces.flatMap fun piece => [piece] :=
          List.flatMap_congr fun piece hpiece => Text.splitAt_of_not_mem (h piece hpiece).2
      _ = pieces := List.flatMap_singleton' pieces
  rw [fileNames, hcuts]
  refine List.filter_eq_self.mpr fun name hname => ?_
  rcases mem_extended hne hname with hmem | ⟨last, hlast, rfl⟩
  · simpa using (h name hmem).1
  · simp [(h last hlast).1]

/-- Plain names of distinct groups land apart, in whatever package. -/
theorem location_ne {d : OutputDirectory} (hext : IsExtension d.extension) (package : String)
    {g h : String} (hg : IsPlainName g) (hh : IsPlainName h) (hne : g ≠ h) :
    d.location (qualifiedName package g) ≠ d.location (qualifiedName package h) := by
  have hgs := Text.splitAt_ne_nil '.' g
  have hhs := Text.splitAt_ne_nil '.' h
  rw [location_eq hext, location_eq hext, namesBelow, namesBelow,
    rooted?_eq_none_iff.mpr fun piece hpiece => not_isRooted (hg piece hpiece).2,
    rooted?_eq_none_iff.mpr fun piece hpiece => not_isRooted (hh piece hpiece).2,
    fileNames_plain hgs hg, fileNames_plain hhs hh]
  intro heq
  have hpieces := eq_of_extended_eq hgs hhs (List.append_cancel_left heq)
  exact hne (Text.splitAt_injective '.' hpieces)

end OutputDirectory

end PreferenceAccessors
