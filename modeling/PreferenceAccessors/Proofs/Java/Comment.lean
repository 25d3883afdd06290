import PreferenceAccessors.Proofs.Java.GeneratedCode
import PreferenceAccessors.Proofs.Safety

/-!
The comment line of the accessors, read as Java source. The translation of
unicode escapes is said once more, as a grammar; what does not belong to it is
refused by a compiler. A comment runs to the end of its line, and the line ends
at the first line feed or carriage return of the translated text. The name of a
field is written into the comment as it is, so the comment is the whole name and
the accessors follow it exactly if the name can be translated and no line ends in
what it is translated to.
-/

namespace PreferenceAccessors

namespace Java

def slash : CodeUnit := 0x2F#16

def isSpace (u : CodeUnit) : Bool :=
  u = 0x20#16 || u = 0x09#16 || u = 0x0C#16

abbrev Line := List CodeUnit × List CodeUnit

def behindReturn (c : Input) : List Input → List CodeUnit
  | [] => c.rest
  | next :: _ => if next.unit = lineFeed then next.rest else c.rest

def readLine : List Input → Option Line
  | [] => none
  | c :: cs =>
    if c.unit = lineFeed then some ([], c.rest)
    else if c.unit = carriageReturn then some ([], behindReturn c cs)
    else (readLine cs).map fun line => (c.unit :: line.1, line.2)

/-- The comment that a source begins with, from its slashes to the end of its line; there may be
spaces in front. -/
def readComment (source : List CodeUnit) : Option Line :=
  match (inputs source).dropWhile fun c => isSpace c.unit with
  | a :: b :: cs =>
    if a.unit = slash ∧ b.unit = slash then readLine (a :: b :: cs) else none
  | _ => none

example : readComment (units " // a\\u000db = 1;") = some (units "// a", units "b = 1;") := by
  decide

/-- The grammar of unicode escapes: the text that a source is translated to. -/
inductive Translates : List CodeUnit → List CodeUnit → Prop
  | nil : Translates [] []
  | plain {c : CodeUnit} {cs ts : List CodeUnit} (hc : c ≠ backslash) (h : Translates cs ts) :
      Translates (c :: cs) (c :: ts)
  | pair {cs ts : List CodeUnit} (h : Translates cs ts) :
      Translates (backslash :: backslash :: cs) (backslash :: backslash :: ts)
  | lone {cs ts : List CodeUnit} (hbackslash : cs.head? ≠ some backslash)
      (hmarker : cs.head? ≠ some marker) (h : Translates cs ts) :
      Translates (backslash :: cs) (backslash :: ts)
  | escape {a b c d w x y z : CodeUnit} {cs ts : List CodeUnit} (markers : ℕ)
      (ha : hexValue? a = some w) (hb : hexValue? b = some x) (hc : hexValue? c = some y)
      (hd : hexValue? d = some z) (h : Translates cs ts) :
      Translates (backslash :: (List.replicate (markers + 1) marker ++ a :: b :: c :: d :: cs))
        ((16 * (16 * (16 * w + x) + y) + z) :: ts)

theorem translate_odd {us : List CodeUnit} (h : us.head? ≠ some backslash) :
    translate (.text true) us = inputs us := by
  cases us with
  | nil => rfl
  | cons u us =>
    have hu : u ≠ backslash := by simpa using h
    simp [inputs, translate, hu]

theorem translate_markers (n : ℕ) (us : List CodeUnit) :
    translate .markers (List.replicate n marker ++ us) = translate .markers us := by
  induction n with
  | zero => rfl
  | succ n ih => rw [List.replicate_succ, List.cons_append, translate, if_pos rfl, ih]

theorem inputs_escape {a b c d w x y z : CodeUnit} (markers : ℕ) (ha : hexValue? a = some w)
    (hb : hexValue? b = some x) (hc : hexValue? c = some y) (hd : hexValue? d = some z)
    (us : List CodeUnit) :
    inputs (backslash :: (List.replicate (markers + 1) marker ++ a :: b :: c :: d :: us)) =
      ⟨16 * (16 * (16 * w + x) + y) + z, us⟩ :: inputs us := by
  have hmarker : a ≠ marker := by
    rintro rfl
    simp [hexValue?, marker] at ha
  have hopen : (List.replicate (markers + 1) marker ++ a :: b :: c :: d :: us).head? =
      some marker := rfl
  rw [inputs, translate, if_pos ⟨rfl, rfl, hopen⟩, translate_markers]
  simp [translate, hmarker, ha, hb, hc, hd, inputs]

theorem Translates.exists_inputs {us ts : List CodeUnit} (h : Translates us ts)
    {r : List CodeUnit} (hbackslash : r.head? ≠ some backslash) (hmarker : r.head? ≠ some marker) :
    ∃ is, inputs (us ++ r) = is ++ inputs r ∧ is.map Input.unit = ts := by
  induction h with
  | nil => exact ⟨[], rfl, rfl⟩
  | @plain c cs ts hc _ ih =>
    obtain ⟨is, hin, rfl⟩ := ih
    exact ⟨⟨c, cs ++ r⟩ :: is, by rw [List.cons_append, inputs_cons hc, hin, List.cons_append], rfl⟩
  | @pair cs ts _ ih =>
    obtain ⟨is, hin, rfl⟩ := ih
    have hpair : inputs (backslash :: backslash :: (cs ++ r)) =
        ⟨backslash, backslash :: (cs ++ r)⟩ :: ⟨backslash, cs ++ r⟩ :: inputs (cs ++ r) := by
      simp [inputs, translate, show backslash ≠ marker by decide]
    exact ⟨⟨backslash, backslash :: (cs ++ r)⟩ :: ⟨backslash, cs ++ r⟩ :: is,
      by rw [List.cons_append, List.cons_append, hpair, hin, List.cons_append, List.cons_append],
      rfl⟩
  | @lone cs ts hb hm _ ih =>
    obtain ⟨is, hin, rfl⟩ := ih
    have hhead : (cs ++ r).head? ≠ some backslash ∧ (cs ++ r).head? ≠ some marker := by
      cases cs with
      | nil => exact ⟨hbackslash, hmarker⟩
      | cons c cs => exact ⟨hb, hm⟩
    have hlone : inputs (backslash :: (cs ++ r)) = ⟨backslash, cs ++ r⟩ :: inputs (cs ++ r) := by
      rw [inputs, translate, if_neg (fun hopen => hhead.2 hopen.2.2)]
      exact congrArg _ (translate_odd hhead.1)
    exact ⟨⟨backslash, cs ++ r⟩ :: is, by rw [List.cons_append, hlone, hin, List.cons_append], rfl⟩
  | @escape a b c d w x y z cs ts markers ha hb hc hd _ ih =>
    obtain ⟨is, hin, rfl⟩ := ih
    refine ⟨⟨16 * (16 * (16 * w + x) + y) + z, cs ++ r⟩ :: is, ?_, rfl⟩
    rw [List.cons_append, List.append_assoc]
    simp only [List.cons_append]
    rw [inputs_escape markers ha hb hc hd, hin]

theorem translates_self {us : List CodeUnit} (h : backslash ∉ us) : Translates us us := by
  induction us with
  | nil => exact .nil
  | cons u us ih =>
    rw [List.mem_cons, not_or] at h
    exact .plain (fun hu => h.1 hu.symm) (ih h.2)

theorem Translates.append_plain {front us ts : List CodeUnit} (hfront : backslash ∉ front)
    (h : Translates us ts) : Translates (front ++ us) (front ++ ts) := by
  induction front with
  | nil => exact h
  | cons u front ih =>
    rw [List.mem_cons, not_or] at hfront
    exact .plain (fun hu => hfront.1 hu.symm) (ih hfront.2)

theorem Translates.of_plain_cons {u : CodeUnit} {us ts : List CodeUnit} (hu : u ≠ backslash)
    (h : Translates (u :: us) ts) : ∃ rest, ts = u :: rest ∧ Translates us rest := by
  cases h with
  | plain _ h => exact ⟨_, rfl, h⟩
  | pair => exact absurd rfl hu
  | lone => exact absurd rfl hu
  | escape => exact absurd rfl hu

theorem Translates.of_plain_append {front us ts : List CodeUnit} (hfront : backslash ∉ front)
    (h : Translates (front ++ us) ts) : ∃ rest, ts = front ++ rest ∧ Translates us rest := by
  induction front generalizing ts with
  | nil => exact ⟨ts, rfl, h⟩
  | cons u front ih =>
    rw [List.mem_cons, not_or] at hfront
    obtain ⟨rest, rfl, hrest⟩ := h.of_plain_cons fun hu => hfront.1 hu.symm
    obtain ⟨rest, rfl, hus⟩ := ih hfront.2 hrest
    exact ⟨rest, rfl, hus⟩

def OnOneLine (us : List CodeUnit) : Prop := lineFeed ∉ us ∧ carriageReturn ∉ us

theorem OnOneLine.append {us vs : List CodeUnit} (hus : OnOneLine us) (hvs : OnOneLine vs) :
    OnOneLine (us ++ vs) := by
  simp only [OnOneLine, List.mem_append, not_or]
  exact ⟨⟨hus.1, hvs.1⟩, hus.2, hvs.2⟩

theorem OnOneLine.of_append {us vs : List CodeUnit} (h : OnOneLine (us ++ vs)) : OnOneLine vs :=
  ⟨fun hmem => h.1 (List.mem_append_right us hmem), fun hmem => h.2 (List.mem_append_right us hmem)⟩

theorem readLine_append {is : List Input} (h : OnOneLine (is.map Input.unit)) (r : List CodeUnit)
    (cs : List Input) : readLine (is ++ ⟨lineFeed, r⟩ :: cs) = some (is.map Input.unit, r) := by
  induction is with
  | nil => rfl
  | cons c is ih =>
    rw [List.map_cons, OnOneLine, List.mem_cons, List.mem_cons, not_or, not_or] at h
    have hlineFeed : c.unit ≠ lineFeed := fun hc => h.1.1 hc.symm
    have hreturn : c.unit ≠ carriageReturn := fun hc => h.2.1 hc.symm
    rw [List.cons_append, readLine, if_neg hlineFeed, if_neg hreturn, ih ⟨h.1.2, h.2.2⟩]
    rfl

theorem onOneLine_of_readLine {cs : List Input} {line : Line} (h : readLine cs = some line) :
    OnOneLine line.1 := by
  induction cs generalizing line with
  | nil => simp [readLine] at h
  | cons c cs ih =>
    rw [readLine] at h
    split_ifs at h with hlineFeed hreturn
    · cases h
      exact ⟨List.not_mem_nil, List.not_mem_nil⟩
    · cases h
      exact ⟨List.not_mem_nil, List.not_mem_nil⟩
    · obtain ⟨rest, hrest, rfl⟩ := Option.map_eq_some_iff.mp h
      obtain ⟨hno, hno'⟩ := ih hrest
      simp only [OnOneLine, List.mem_cons, not_or]
      exact ⟨⟨fun hc => hlineFeed hc.symm, hno⟩, fun hc => hreturn hc.symm, hno'⟩

theorem onOneLine_of_readComment {source : List CodeUnit} {line : Line}
    (h : readComment source = some line) : OnOneLine line.1 := by
  unfold readComment at h
  split at h
  · split_ifs at h
    exact onOneLine_of_readLine h
  · simp at h

theorem readComment_line {us ts : List CodeUnit} (h : Translates us ts) (hline : OnOneLine ts)
    (r : List CodeUnit) :
    readComment (units "  // " ++ (us ++ lineFeed :: r)) = some (units "// " ++ ts, r) := by
  obtain ⟨is, hin, rfl⟩ := h.exists_inputs (r := lineFeed :: r) (by simp [lineFeed, backslash])
    (by simp [lineFeed, marker])
  have hspaces : units "  // " = [0x20#16, 0x20#16, slash, slash, 0x20#16] := by decide
  have hslashes : units "// " = [slash, slash, 0x20#16] := by decide
  have hspace : (0x20#16 : CodeUnit) ≠ backslash := by decide
  have hslash : slash ≠ backslash := by decide
  have hfeed : lineFeed ≠ backslash := by decide
  have hlead : OnOneLine [slash, slash, 0x20#16] := by unfold OnOneLine; decide
  rw [hspaces, hslashes]
  simp only [List.cons_append, List.nil_append]
  rw [inputs_cons hfeed] at hin
  rw [readComment, inputs_cons hspace, inputs_cons hspace, inputs_cons hslash, inputs_cons hslash,
    inputs_cons hspace, hin]
  have hall : ∀ a b c : List CodeUnit,
      OnOneLine ((⟨slash, a⟩ :: ⟨slash, b⟩ :: ⟨0x20#16, c⟩ :: is : List Input).map Input.unit) :=
    fun _ _ _ => hlead.append hline
  exact readLine_append (hall _ _ _) r (inputs r)

/-- Read as Java, a fragment begins with the whole of this line as a comment, and what follows the
line is this. -/
def BeginsWithComment (fragment line rest : String) : Prop :=
  ∃ text, Translates (units line) text ∧ readComment (units fragment) = some (text, units rest)

end Java

open Java

theorem Java.exists_translates_onOneLine_of_plain {s : String} (hbackslash : '\\' ∉ s.toList)
    (hfeed : '\n' ∉ s.toList) (hreturn : '\r' ∉ s.toList) :
    Translates (units s) (units s) ∧ OnOneLine (units s) := by
  exact ⟨translates_self (not_mem_units (by decide) (by decide) hbackslash),
    not_mem_units (by decide) (by decide) hfeed, not_mem_units (by decide) (by decide) hreturn⟩

theorem Accessor.text_of_source {a : Accessor} {s : SourceField} (h : a.source = some s) :
    a.text = "  // " ++ (s.text ++ ("\n" ++ { a with source := none }.text)) := by
  have hnone : Accessor.comment { a with source := none } = "" := rfl
  have hsome : a.comment = "  // " ++ s.text ++ "\n" := by rw [comment, h]
  rw [text, text, hsome, hnone, String.empty_append]
  simp only [String.append_assoc]
  rfl

theorem Accessor.units_text_of_source {a : Accessor} {s : SourceField} (h : a.source = some s) :
    units a.text = units "  // " ++
      (units s.text ++ lineFeed :: units { a with source := none }.text) := by
  have hfeed : units "\n" = [lineFeed] := by decide
  rw [text_of_source h, units_append, units_append, units_append, hfeed, List.singleton_append]

theorem Accessor.beginsWithComment_iff {a : Accessor} {s : SourceField} (h : a.source = some s) :
    BeginsWithComment a.text ("// " ++ s.text) { a with source := none }.text ↔
      ∃ text, Translates (units s.text) text ∧ OnOneLine text := by
  have hplain : backslash ∉ units "// " := by decide
  rw [BeginsWithComment, units_append, units_text_of_source h]
  constructor
  · rintro ⟨text, htext, hread⟩
    obtain ⟨rest, rfl, hrest⟩ := htext.of_plain_append hplain
    exact ⟨rest, hrest, (onOneLine_of_readComment hread).of_append⟩
  · rintro ⟨text, htext, hline⟩
    exact ⟨units "// " ++ text, htext.append_plain hplain, readComment_line htext hline _⟩

theorem Accessor.readComment_cut {a : Accessor} {s : SourceField} (h : a.source = some s)
    (front back : String) (hcut : s.text = front ++ ("\n" ++ back))
    (hbackslash : '\\' ∉ front.toList) (hfeed : '\n' ∉ front.toList)
    (hreturn : '\r' ∉ front.toList) :
    readComment (units a.text) =
      some (units ("// " ++ front), units (back ++ "\n" ++ { a with source := none }.text)) := by
  obtain ⟨hkept, hline⟩ := exists_translates_onOneLine_of_plain hbackslash hfeed hreturn
  have hunits : units "\n" = [lineFeed] := by decide
  rw [units_text_of_source h, hcut]
  simp only [units_append, hunits, List.append_assoc, List.cons_append, List.nil_append]
  exact readComment_line hkept hline _

namespace Kind

/-- The accessors of a declaration with a source begin with the name of the source as a comment,
and go on with what is written without a source, if and only if the name can be translated and
stays on one line. A name without backslashes and line ends is the comment as it stands. -/
theorem emit_beginsWithComment_iff (d : Declaration) {given : Option SourceField} {s : SourceField}
    (hs : (given <|> d.source) = some s) :
    (∃ fragment, d.kind.emit d given = .ok fragment) ∧
      ∀ (k : Kind) (fragment : String), k.emit d given = .ok fragment →
        ∃ bare, k.emit { d with source := none } none = .ok bare ∧
          (BeginsWithComment fragment ("// " ++ s.text) bare ↔
            ∃ text, Translates (units s.text) text ∧ OnOneLine text) ∧
          ('\\' ∉ s.text.toList → '\n' ∉ s.text.toList → '\r' ∉ s.text.toList →
            readComment (units fragment) = some (units ("// " ++ s.text), units bare)) := by
  refine ⟨⟨_, emit_own d given⟩, fun k fragment hemit => ?_⟩
  cases hliteral : k.literal d.default.toValue with
  | error e => simp [emit, hliteral, Except.map] at hemit
  | ok literal =>
    rw [emit, hliteral, hs, Except.map, Except.ok.injEq] at hemit
    subst hemit
    refine ⟨(⟨k, d.key, literal, none⟩ : Accessor).text, ?_, Accessor.beginsWithComment_iff rfl,
      fun hbackslash hfeed hreturn => ?_⟩
    · rw [emit, hliteral]
      rfl
    · obtain ⟨htext, hline⟩ := exists_translates_onOneLine_of_plain hbackslash hfeed hreturn
      rw [Accessor.units_text_of_source rfl, units_append]
      exact readComment_line htext hline _

def flagOf (source : Option SourceField) : Declaration :=
  ⟨"", "k", .boolean true, source, by decide⟩

theorem emit_beginsWithComment_escaped :
    ((none : Option SourceField) <|> (flagOf (some ⟨"a.\\u0062", "c"⟩)).source) =
        some ⟨"a.\\u0062", "c"⟩ ∧
      ∃ fragment bare, boolean.emit (flagOf (some ⟨"a.\\u0062", "c"⟩)) none = .ok fragment ∧
        boolean.emit (flagOf none) none = .ok bare ∧
        BeginsWithComment fragment "// a.\\u0062#c" bare := by
  have hs : ((none : Option SourceField) <|> (flagOf (some ⟨"a.\\u0062", "c"⟩)).source) =
      some ⟨"a.\\u0062", "c"⟩ := rfl
  obtain ⟨⟨fragment, hfragment⟩, hall⟩ := emit_beginsWithComment_iff (flagOf _) hs
  obtain ⟨bare, hbare, hiff, -⟩ := hall _ fragment hfragment
  have hname : units "a.\\u0062#c" =
      units "a." ++ backslash :: (List.replicate 1 marker ++ 0x30 :: 0x30 :: 0x36 :: 0x32 ::
        units "#c") := by decide
  have htail : Translates (units "#c") (units "#c") := translates_self (by decide)
  have hplain : backslash ∉ units "a." := by decide
  have hescape : Translates (units "a.\\u0062#c") (units "a." ++ 0x62 :: units "#c") := by
    rw [hname]
    exact .append_plain hplain
      (.escape (w := 0) (x := 0) (y := 6) (z := 2) 0 rfl rfl rfl rfl htail)
  refine ⟨hs, fragment, bare, hfragment, hbare, hiff.mpr ⟨_, hescape, ?_⟩⟩
  unfold OnOneLine
  decide

/-- A line feed in the name of a class: the comment is cut off there, and what follows it in the
name is read as code. -/
theorem emit_cut_comment :
    ∃ fragment bare, boolean.emit (flagOf none) (some ⟨"A\nB", "c"⟩) = .ok fragment ∧
      boolean.emit (flagOf none) none = .ok bare ∧
      readComment (units fragment) = some (units "// A", units ("B#c\n" ++ bare)) ∧
      ¬ BeginsWithComment fragment "// A\nB#c" bare := by
  let bare : Accessor := ⟨boolean, "k", (flagOf none).default.literal, none⟩
  have hread := Accessor.readComment_cut (a := { bare with source := some ⟨"A\nB", "c"⟩ }) rfl
    "A" "B#c" (by decide) (by decide) (by decide) (by decide)
  refine ⟨_, bare.text, emit_own (flagOf none) _, emit_own (flagOf none) _, hread, ?_⟩
  rintro ⟨text, -, htext⟩
  have hrest : (units ("B#c" ++ "\n" ++ bare.text)).length = (units bare.text).length :=
    congrArg List.length (Prod.mk.inj (Option.some.inj (hread.symm.trans htext))).2
  rw [units_append, List.length_append] at hrest
  have hcode : (units ("B#c" ++ "\n")).length = 4 := by decide
  omega

end Kind

end PreferenceAccessors
