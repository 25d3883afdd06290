import PreferenceAccessors.Proofs.ConfigReading
import PreferenceAccessors.SourcePath

/-!
Line ends. A text is cut behind each line feed, a file behind each character that is a
line feed once the text is seen through the file, and nowhere else. What a config says
is in its lines without the CR and LF characters at their end: it is the same with CR LF
for LF, and read from a file in which CR stands before LF only.
-/

namespace PreferenceAccessors

namespace Text

/-- The lines are the parts of a text as it is seen, and behind a part of the text, short of the
whole, a line ends exactly if the part has a closing character at its end. -/
structure IsCut (closes : Char → Prop) (seen : List Char → List Char) (text : List Char)
    (lines : List (List Char)) : Prop where
  flatten : lines.flatten = seen text
  nonempty : [] ∉ lines
  ends_iff : ∀ before after, before ≠ [] → after ≠ [] → text = before ++ after →
    ((∃ k, (lines.take k).flatten = seen before) ↔ ∃ c ∈ before.getLast?, closes c)

def extend (c : Char) : List (List Char) → List (List Char)
  | [] => [[c]]
  | line :: lines => (c :: line) :: lines

theorem splitLines_lf (rest : List Char) : splitLines ('\n' :: rest) = ['\n'] :: splitLines rest :=
  rfl

theorem splitLines_cons {c : Char} (hc : c ≠ '\n') (rest : List Char) :
    splitLines (c :: rest) = extend c (splitLines rest) := by
  rw [splitLines, if_neg hc]
  rfl

theorem splitLines_ne_nil {cs : List Char} (h : cs ≠ []) : splitLines cs ≠ [] := by
  intro hnil
  have hcs := flatten_splitLines cs
  rw [hnil] at hcs
  exact h hcs.symm

theorem nil_not_mem_splitLines (cs : List Char) : [] ∉ splitLines cs := by
  induction cs with
  | nil => exact List.not_mem_nil
  | cons c rest ih =>
    by_cases hc : c = '\n'
    · subst hc
      rw [splitLines_lf]
      simpa using ih
    · rw [splitLines_cons hc]
      cases hl : splitLines rest with
      | nil => simp [extend]
      | cons line lines =>
        rw [hl] at ih
        simpa [extend] using fun h => ih (List.mem_cons_of_mem _ h)

theorem splitLines_append {before : List Char} (h : before.getLast? = some '\n')
    (after : List Char) :
    splitLines (before ++ after) = splitLines before ++ splitLines after := by
  induction before with
  | nil => simp at h
  | cons c rest ih =>
    rcases eq_or_ne rest [] with rfl | hrest
    · obtain rfl : c = '\n' := by simpa using h
      rfl
    · have happend := ih (by rwa [List.getLast?_cons_of_ne_nil hrest] at h)
      by_cases hc : c = '\n'
      · subst hc
        rw [List.cons_append, splitLines_lf, splitLines_lf, happend]
        rfl
      · rw [List.cons_append, splitLines_cons hc, splitLines_cons hc, happend]
        cases hl : splitLines rest with
        | nil => exact absurd hl (splitLines_ne_nil hrest)
        | cons line lines => rfl

theorem getLast?_of_mem_dropLast_splitLines (cs : List Char) :
    ∀ line ∈ (splitLines cs).dropLast, line.getLast? = some '\n' := by
  induction cs with
  | nil => simp [splitLines]
  | cons c rest ih =>
    by_cases hc : c = '\n'
    · subst hc
      rw [splitLines_lf]
      cases hl : splitLines rest with
      | nil => simp
      | cons line lines =>
        rw [hl] at ih
        rw [List.dropLast_cons_cons]
        exact List.forall_mem_cons.mpr ⟨rfl, ih⟩
    · rw [splitLines_cons hc]
      rcases hl : splitLines rest with _ | ⟨line, _ | ⟨next, lines⟩⟩
      · simp [extend]
      · simp [extend]
      · rw [hl, List.dropLast_cons_cons] at ih
        obtain ⟨hline, hlines⟩ := List.forall_mem_cons.mp ih
        rw [extend, List.dropLast_cons_cons]
        refine List.forall_mem_cons.mpr ⟨?_, hlines⟩
        rw [List.getLast?_cons, hline]
        rfl

theorem getLast?_flatten_of_closed {lines : List (List Char)}
    (h : ∀ line ∈ lines, line.getLast? = some '\n') (hne : lines.flatten ≠ []) :
    lines.flatten.getLast? = some '\n' := by
  rcases List.eq_nil_or_concat lines with rfl | ⟨front, line, rfl⟩
  · simp at hne
  · have hline := h line (by simp)
    rw [List.concat_eq_append, List.flatten_concat, List.getLast?_append, hline]
    rfl

theorem exists_take_splitLines_iff {before after : List Char} (hbefore : before ≠ [])
    (hafter : after ≠ []) :
    (∃ k, ((splitLines (before ++ after)).take k).flatten = before) ↔
      before.getLast? = some '\n' := by
  constructor
  · rintro ⟨k, hk⟩
    have hshort : k < (splitLines (before ++ after)).length := by
      by_contra hlong
      rw [List.take_of_length_le (Nat.le_of_not_lt hlong), flatten_splitLines] at hk
      exact hafter (List.append_right_eq_self.mp hk)
    have hclosed : ∀ line ∈ (splitLines (before ++ after)).take k, line.getLast? = some '\n' := by
      intro line hline
      apply getLast?_of_mem_dropLast_splitLines (before ++ after) line
      rw [List.dropLast_eq_take]
      exact List.take_subset_take_left _ (by omega) hline
    rw [← hk]
    exact getLast?_flatten_of_closed hclosed (by rwa [hk])
  · intro h
    refine ⟨(splitLines before).length, ?_⟩
    rw [splitLines_append h, List.take_left, flatten_splitLines]

theorem isCut_splitLines (cs : List Char) : IsCut (· = '\n') id cs (splitLines cs) where
  flatten := flatten_splitLines cs
  nonempty := nil_not_mem_splitLines cs
  ends_iff before after hbefore hafter hcs := by
    rw [hcs, id, exists_take_splitLines_iff hbefore hafter]
    simp

theorem getLast?_unifyNewlines (cs : List Char) :
    (unifyNewlines cs).getLast? = cs.getLast?.map fun c => if c = '\r' then '\n' else c := by
  fun_induction unifyNewlines cs with
  | case1 => rfl
  | case2 rest ih =>
    rw [List.getLast?_cons, List.getLast?_cons, List.getLast?_cons, ih]
    cases rest.getLast? <;> simp
  | case3 c rest _ ih =>
    rw [List.getLast?_cons, List.getLast?_cons, ih]
    cases rest.getLast? <;> simp

theorem unifyNewlines_ne_nil {cs : List Char} (h : cs ≠ []) : unifyNewlines cs ≠ [] := by
  intro hnil
  have hlast := getLast?_unifyNewlines cs
  rw [hnil] at hlast
  simp [h] at hlast

theorem unifyNewlines_crlf (rest : List Char) :
    unifyNewlines ('\r' :: '\n' :: rest) = '\n' :: unifyNewlines rest :=
  rfl

theorem unifyNewlines_cons {c : Char} {rest : List Char}
    (h : c = '\r' → rest.head? ≠ some '\n') :
    unifyNewlines (c :: rest) = (if c = '\r' then '\n' else c) :: unifyNewlines rest := by
  rw [unifyNewlines]
  rintro after rfl rfl
  exact h rfl rfl

/-- What is in front is seen as it is alone; all that is behind it may be the LF of its last CR. -/
theorem unifyNewlines_append (before : List Char) {after : List Char} (hafter : after ≠ []) :
    ∃ rest, unifyNewlines (before ++ after) = unifyNewlines before ++ rest ∧
      (rest = [] → before.getLast? = some '\r') := by
  fun_induction unifyNewlines before with
  | case1 =>
    refine ⟨unifyNewlines after, rfl, fun h => ?_⟩
    exact absurd h (unifyNewlines_ne_nil hafter)
  | case2 front ih =>
    obtain ⟨rest, hrest, hlast⟩ := ih
    refine ⟨rest, ?_, fun h => ?_⟩
    · rw [List.cons_append, List.cons_append, unifyNewlines_crlf, hrest]
      rfl
    · rw [List.getLast?_cons, List.getLast?_cons, hlast h]
      rfl
  | case3 c front hfront ih =>
    by_cases hhalf : c = '\r' ∧ (front ++ after).head? = some '\n'
    · obtain ⟨rfl, hhead⟩ := hhalf
      obtain ⟨tail, htail⟩ := List.head?_eq_some_iff.mp hhead
      rcases List.append_eq_cons_iff.mp htail with ⟨rfl, rfl⟩ | ⟨front', hfront', -⟩
      · exact ⟨unifyNewlines tail, rfl, fun _ => rfl⟩
      · exact absurd hfront' (hfront front' rfl)
    · obtain ⟨rest, hrest, hlast⟩ := ih
      refine ⟨rest, ?_, fun h => ?_⟩
      · rw [List.cons_append, unifyNewlines_cons fun hc hhead => hhalf ⟨hc, hhead⟩, hrest]
        rfl
      · rw [List.getLast?_cons, hlast h]
        rfl

theorem isCut_unifyNewlines (cs : List Char) :
    IsCut (fun c => c = '\n' ∨ c = '\r') unifyNewlines cs (splitLines (unifyNewlines cs)) where
  flatten := flatten_splitLines _
  nonempty := nil_not_mem_splitLines _
  ends_iff before after hbefore hafter hcs := by
    obtain ⟨rest, hrest, hlast⟩ := unifyNewlines_append before hafter
    have hcloses : (unifyNewlines before).getLast? = some '\n' ↔
        ∃ c ∈ before.getLast?, c = '\n' ∨ c = '\r' := by
      rw [getLast?_unifyNewlines, Option.map_eq_some_iff]
      refine exists_congr fun c => and_congr_right fun _ => ?_
      by_cases hc : c = '\r' <;> simp [hc]
    rw [hcs, hrest]
    rcases eq_or_ne rest [] with rfl | hne
    · refine iff_of_true ⟨(splitLines (unifyNewlines before)).length, ?_⟩
        ⟨'\r', hlast rfl, .inr rfl⟩
      rw [List.append_nil, List.take_length, flatten_splitLines]
    · rw [← hcloses]
      exact exists_take_splitLines_iff (unifyNewlines_ne_nil hbefore) hne

def withCrLf (cs : List Char) : List Char :=
  cs.flatMap fun c => if c = '\n' then ['\r', '\n'] else [c]

def IsCrBeforeLf (cs : List Char) : Prop :=
  cs.IsChain (fun c next => c = '\r' → next = '\n') ∧ cs.getLast? ≠ some '\r'

instance (cs : List Char) : Decidable (IsCrBeforeLf cs) :=
  inferInstanceAs (Decidable (_ ∧ _))

theorem IsCrBeforeLf.tail {c : Char} {rest : List Char} (h : IsCrBeforeLf (c :: rest)) :
    IsCrBeforeLf rest := by
  refine ⟨h.1.tail, fun hlast => h.2 ?_⟩
  rw [List.getLast?_cons, hlast]
  rfl

theorem IsCrBeforeLf.head? {rest : List Char} (h : IsCrBeforeLf ('\r' :: rest)) :
    rest.head? = some '\n' := by
  cases rest with
  | nil => exact absurd rfl h.2
  | cons c rest => rw [List.head?_cons, (List.isChain_cons_cons.mp h.1).1 rfl]

theorem fromUTF8?_toUTF8 (s : String) : String.fromUTF8? s.toUTF8 = some s := by
  rw [String.fromUTF8?, String.toUTF8_eq_toByteArray, dif_pos s.isValidUTF8]
  rfl

end Text

namespace Config
open Text

/-- Texts with the same lines, but for the CR and LF characters at the ends. -/
def SameLines (a b : List Char) : Prop :=
  (splitLines a).map (List.rdropWhile isLineEnd) = (splitLines b).map (List.rdropWhile isLineEnd)

theorem rdropWhile_cons_congr (c : Char) {xs ys : List Char}
    (h : xs.rdropWhile isLineEnd = ys.rdropWhile isLineEnd) :
    (c :: xs).rdropWhile isLineEnd = (c :: ys).rdropWhile isLineEnd := by
  simp only [← dropEndWhile_eq_rdropWhile] at h ⊢
  rw [dropEndWhile_cons, dropEndWhile_cons, h]

namespace SameLines

theorem lf {a b : List Char} (h : SameLines a b) : SameLines ('\n' :: a) ('\n' :: b) := by
  rw [SameLines, splitLines_lf, splitLines_lf, List.map_cons, List.map_cons, h]

theorem crlf {a b : List Char} (h : SameLines a b) :
    SameLines ('\r' :: '\n' :: a) ('\n' :: b) := by
  rw [SameLines, splitLines_cons (by decide), splitLines_lf, splitLines_lf, extend, List.map_cons,
    List.map_cons, h]
  rfl

theorem cons {a b : List Char} {c : Char} (hc : c ≠ '\n') (h : SameLines a b) :
    SameLines (c :: a) (c :: b) := by
  rw [SameLines] at h
  rw [SameLines, splitLines_cons hc, splitLines_cons hc]
  cases ha : splitLines a with
  | nil =>
    rw [ha, List.map_nil, eq_comm, List.map_eq_nil_iff] at h
    rw [h]
  | cons line lines =>
    rw [ha, List.map_cons, eq_comm] at h
    obtain ⟨line', lines', hb, hline, hlines⟩ := List.map_eq_cons_iff.mp h
    rw [hb, extend, extend, List.map_cons, List.map_cons, hlines,
      rdropWhile_cons_congr c hline]

theorem symm {a b : List Char} (h : SameLines a b) : SameLines b a :=
  Eq.symm h

end SameLines

theorem sameLines_withCrLf (cs : List Char) : SameLines (withCrLf cs) cs := by
  induction cs with
  | nil => rfl
  | cons c rest ih =>
    by_cases hc : c = '\n'
    · subst hc
      exact ih.crlf
    · rw [withCrLf, List.flatMap_cons, if_neg hc]
      exact ih.cons hc

theorem sameLines_unifyNewlines {cs : List Char} (h : IsCrBeforeLf cs) :
    SameLines cs (unifyNewlines cs) := by
  fun_induction unifyNewlines cs with
  | case1 => rfl
  | case2 rest ih => exact (ih h.tail.tail).crlf
  | case3 c rest hrest ih =>
    have hc : c ≠ '\r' := by
      rintro rfl
      obtain ⟨tail, htail⟩ := List.head?_eq_some_iff.mp h.head?
      exact hrest tail rfl htail
    rw [if_neg hc]
    by_cases hlf : c = '\n'
    · subst hlf
      exact (ih h.tail).lf
    · exact (ih h.tail).cons hlf

theorem readLines_congr (started : Bool) (config : Config) {as bs : List String}
    (h : as.map dropLineEnd = bs.map dropLineEnd) :
    readLines started config as = readLines started config bs := by
  induction as generalizing bs started config with
  | nil =>
    rw [List.map_nil, eq_comm, List.map_eq_nil_iff] at h
    rw [h]
  | cons a as ih =>
    rw [List.map_cons, eq_comm] at h
    obtain ⟨b, bs, rfl, hb, hbs⟩ := List.map_eq_cons_iff.mp h
    simp only [readLines, hb, ih _ _ hbs.symm]

theorem map_dropLineEnd_lines (s : String) :
    (lines s).map dropLineEnd =
      ((splitLines s.toList).map (List.rdropWhile isLineEnd)).map String.ofList := by
  rw [lines, List.map_map, List.map_map]
  refine List.map_congr_left fun line _ => ?_
  rw [Function.comp_apply, Function.comp_apply, dropLineEnd_eq, String.toList_ofList]

theorem ofReading_ofText_congr {s t : String} (h : SameLines s.toList t.toList) :
    ofReading (.ofText s) = ofReading (.ofText t) := by
  have hlines : (lines s).map dropLineEnd = (lines t).map dropLineEnd := by
    rw [map_dropLineEnd_lines, map_dropLineEnd_lines, h]
  rw [ofReading, ofReading, Reading.ofText, Reading.ofText, readLines_congr false empty hlines]

end Config

namespace Reading

theorem ofBytes_toUTF8 (text : String) :
    ofBytes text.toUTF8 = ofText (String.ofList (Text.unifyNewlines text.toList)) := by
  rw [ofBytes, Text.ofBytes?, Text.fromUTF8?_toUTF8]
  rfl

theorem lines_ofText (text : String) :
    (ofText text).lines.map String.toList = Text.splitLines text.toList := by
  rw [ofText, Text.lines, List.map_map]
  simp [Function.comp_def]

end Reading

namespace Config
open Text

/-- A text and the text with CR LF for LF are read as the same config. In memory a line ends behind
LF and nothing else, in a file that the source path finds also behind CR; the file is read as the
text in memory when it has CR before LF only. -/
theorem ofReading_lineEndings (text : String) :
    ofReading (.ofText (String.ofList (withCrLf text.toList))) = ofReading (.ofText text) ∧
    IsCut (· = '\n') id text.toList ((Reading.ofText text).lines.map String.toList) ∧
    ∀ (path : SourcePath) (cwd : Path) (tree : FileTree) (name : String),
      SourcePath.find? cwd tree name path.paths = .ok (some text.toUTF8) →
      ∃ reading, path.resources cwd tree name = .handed reading ∧ reading.failure = none ∧
        IsCut (fun c => c = '\n' ∨ c = '\r') unifyNewlines text.toList
          (reading.lines.map String.toList) ∧
        (IsCrBeforeLf text.toList → ofReading reading = ofReading (.ofText text)) := by
  refine ⟨?_, ?_, fun path cwd tree name hfind => ⟨.ofBytes text.toUTF8, ?_, ?_, ?_, fun h => ?_⟩⟩
  · apply ofReading_ofText_congr
    rw [String.toList_ofList]
    exact sameLines_withCrLf text.toList
  · rw [Reading.lines_ofText]
    exact isCut_splitLines text.toList
  · rw [SourcePath.resources, hfind]
  · rw [Reading.ofBytes_toUTF8]
    rfl
  · rw [Reading.ofBytes_toUTF8, Reading.lines_ofText, String.toList_ofList]
    exact isCut_unifyNewlines text.toList
  · rw [Reading.ofBytes_toUTF8]
    apply ofReading_ofText_congr
    rw [String.toList_ofList]
    exact (sameLines_unifyNewlines h).symm

def Sample.mixed : String :=
  " \r\npackage: a\x0c\r\nG,x\u2028,true,boolean\nG,\x85y,,boolean"

def Sample.mixedTree : FileTree :=
  .directory [("prefs", .file Sample.mixed.toUTF8)]

theorem sample_mixed_read :
    SourcePath.find? ⟨.absolute, []⟩ Sample.mixedTree "prefs" [⟨.absolute, []⟩] =
      .ok (some Sample.mixed.toUTF8) ∧
    IsCrBeforeLf Sample.mixed.toList ∧
    (ofReading (.ofText Sample.mixed)).value = ⟨some "a",
      [⟨"G", "x\u2028", .boolean true, none, by decide⟩,
        ⟨"G", "\x85y", .boolean false, none, by decide⟩]⟩ ∧
    ∃ reading, (SourcePath.resources ⟨[⟨.absolute, []⟩]⟩ ⟨.absolute, []⟩ Sample.mixedTree "prefs") =
        .handed reading ∧ ofReading reading = ofReading (.ofText Sample.mixed) := by
  have hfind : SourcePath.find? ⟨.absolute, []⟩ Sample.mixedTree "prefs" [⟨.absolute, []⟩] =
      .ok (some Sample.mixed.toUTF8) := by
    rfl
  have hcr : IsCrBeforeLf Sample.mixed.toList := by decide +kernel
  obtain ⟨-, -, hfiles⟩ := ofReading_lineEndings Sample.mixed
  obtain ⟨reading, hhanded, -, -, hread⟩ := hfiles ⟨[⟨.absolute, []⟩]⟩ ⟨.absolute, []⟩
    Sample.mixedTree "prefs" hfind
  exact ⟨hfind, hcr, by decide +kernel, reading, hhanded, hread hcr⟩

end Config

end PreferenceAccessors
