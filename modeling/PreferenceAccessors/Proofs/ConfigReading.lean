import Mathlib.Data.List.DropRight
import Mathlib.Tactic
import PreferenceAccessors.Config

/-!
What a config reading amounts to. Blank lines at the front are dropped. The first
line behind them may be the package directive; it is no data then. Every other
line is read by itself, without the CR and LF characters at its end, and the lines
that say nothing are left out.

A reading that breaks off is the whole reading of the lines before the break, and
one warning.
-/

namespace PreferenceAccessors

namespace Text

theorem dropEndWhile_eq_rdropWhile {α : Type} (p : α → Bool) (xs : List α) :
    dropEndWhile p xs = xs.rdropWhile p := by
  induction xs using List.reverseRecOn with
  | nil => rfl
  | append_singleton xs x ih =>
    by_cases h : p x = true
    · rw [List.rdropWhile_concat_pos p xs x h, ← ih]
      exact dropEndWhile_append_of_all p xs [x] (by simpa using h)
    · rw [List.rdropWhile_concat_neg p xs x h]
      -- The last character stays, and with it all before: `dropEndWhile` sees that from the front.
      clear ih
      induction xs with
      | nil => simp [dropEndWhile_cons, dropEndWhile_nil, h]
      | cons y ys ih => simp [dropEndWhile_cons, ih]

theorem trim_append_of_blank (cs ends : List Char) (h : ends.all isBlank = true) :
    trim (cs ++ ends) = trim cs := by
  unfold trim
  rw [List.dropWhile_append]
  split_ifs with hcs
  · have hends : ends.dropWhile isBlank = [] :=
      List.dropWhile_eq_nil_iff.mpr (List.all_eq_true.mp h)
    rw [hends, List.isEmpty_iff.mp hcs]
  · exact dropEndWhile_append_of_all isBlank _ ends h

end Text

/-- The reading of lines that breaks off after the first so many, for a reason, or never. Reading
the end of the lines counts as one more line. -/
def Reading.ofLines (lines : List String) : Option (ℕ × String) → Reading
  | none => ⟨lines, none⟩
  | some (n, reason) => if n ≤ lines.length then ⟨lines.take n, some reason⟩ else ⟨lines, none⟩

theorem Reading.ofText_eq (text : String) : ofText text = ofLines (Text.lines text) none := rfl

theorem Reading.failingAfter_eq (n : ℕ) (reason text : String) :
    failingAfter n reason text = ofLines (Text.lines text) (some (n, reason)) := rfl

namespace Config

def isLineEnd (c : Char) : Bool :=
  c == '\r' || c == '\n'

theorem isBlank_of_isLineEnd {c : Char} (h : isLineEnd c = true) : Text.isBlank c = true := by
  simp only [isLineEnd, Bool.or_eq_true, beq_iff_eq] at h
  rcases h with rfl | rfl <;> decide

theorem dropLineEnd_eq (raw : String) :
    dropLineEnd raw = String.ofList (raw.toList.rdropWhile isLineEnd) := by
  rw [dropLineEnd, Text.dropEndWhile_eq_rdropWhile]
  rfl

theorem exists_lineEnd (raw : String) :
    ∃ ends : List Char, raw.toList = (dropLineEnd raw).toList ++ ends ∧
      ends.all Text.isBlank = true := by
  refine ⟨raw.toList.rtakeWhile isLineEnd, ?_, ?_⟩
  · rw [dropLineEnd_eq, String.toList_ofList, List.rdropWhile_append_rtakeWhile]
  · rw [List.all_eq_true]
    intro c hc
    exact isBlank_of_isLineEnd (List.mem_rtakeWhile_imp hc)

theorem trim_dropLineEnd (raw : String) :
    Text.trim (dropLineEnd raw).toList = Text.trim raw.toList := by
  obtain ⟨ends, hraw, hends⟩ := exists_lineEnd raw
  rw [hraw, Text.trim_append_of_blank _ ends hends]

theorem isBlankText_dropLineEnd (raw : String) :
    Text.isBlankText (dropLineEnd raw) = Text.isBlankText raw := by
  obtain ⟨ends, hraw, hends⟩ := exists_lineEnd raw
  rw [Text.isBlankText, Text.isBlankText, hraw, List.all_append, hends, Bool.and_true]

/-- What the data lines say, in order; a line that says nothing is left out. -/
def said (lines : List String) : List Declaration :=
  lines.filterMap fun raw => readLine? (String.ofList (raw.toList.rdropWhile isLineEnd))

theorem said_eq (lines : List String) :
    said lines = (lines.map dropLineEnd).filterMap readLine? := by
  simp only [said, List.filterMap_map, ← dropLineEnd_eq]
  rfl

theorem said_append (xs ys : List String) : said (xs ++ ys) = said xs ++ said ys :=
  List.filterMap_append

theorem said_cons (raw : String) (rest : List String) :
    said (raw :: rest) = (readLine? (dropLineEnd raw)).toList ++ said rest := by
  rw [dropLineEnd_eq]
  unfold said
  cases h : readLine? (String.ofList (raw.toList.rdropWhile isLineEnd)) <;> simp [h]

def named (text : String) : Option String :=
  if Text.strip text = "" then none else some (Text.strip text)

theorem directive?_of_strip {raw text : String} (h : Text.strip raw = "package:" ++ text) :
    directive? (dropLineEnd raw) = some (named text) := by
  have hchars : Text.trim raw.toList = "package:".toList ++ text.toList := by
    rw [← String.toList_append, ← h, Text.strip, String.toList_ofList]
  rw [directive?, trim_dropLineEnd, hchars]
  simp [named]

theorem directive?_eq_none {raw : String} (h : ∀ text, Text.strip raw ≠ "package:" ++ text) :
    directive? (dropLineEnd raw) = none := by
  rw [directive?, trim_dropLineEnd]
  refine if_neg fun hprefix => ?_
  obtain ⟨rest, hrest⟩ := List.isPrefixOf_iff_prefix.mp hprefix
  apply h (String.ofList rest)
  rw [Text.strip, ← hrest, String.ofList_append, String.ofList_toList]

theorem not_isBlankText_of_strip {raw text : String} (h : Text.strip raw = "package:" ++ text) :
    Text.isBlankText raw = false := by
  rw [Bool.eq_false_iff]
  intro hblank
  have hnil : Text.trim raw.toList = [] := by
    rw [← List.nil_append raw.toList, Text.trim_append_of_blank [] _ hblank]
    rfl
  rw [Text.strip, hnil] at h
  have hchars := congrArg String.toList h
  simp [String.toList_append] at hchars

section ReadLines
variable (config : Config)

theorem readLines_started (lines : List String) :
    readLines true config lines = pure ⟨config.package, config.declarations ++ said lines⟩ := by
  induction lines generalizing config with
  | nil => simp [readLines, said]
  | cons raw rest ih =>
    rw [said_cons, ← List.append_assoc]
    exact ih ⟨config.package, config.declarations ++ (readLine? (dropLineEnd raw)).toList⟩

theorem readLines_blank {blank : List String} (h : ∀ raw ∈ blank, Text.isBlankText raw = true)
    (rest : List String) :
    readLines false config (blank ++ rest) = readLines false config rest := by
  induction blank with
  | nil => rfl
  | cons raw blank ih =>
    obtain ⟨hraw, hblank⟩ := List.forall_mem_cons.mp h
    rw [List.cons_append, readLines, isBlankText_dropLineEnd, hraw]
    exact ih hblank

theorem readLines_directive {raw text : String} (h : Text.strip raw = "package:" ++ text)
    (rest : List String) :
    readLines false config (raw :: rest) = (do
      Logged.tell (.packageRead (named text))
      pure ⟨named text, config.declarations ++ said rest⟩) := by
  rw [readLines, isBlankText_dropLineEnd, not_isBlankText_of_strip h]
  simp only [Bool.not_false, Bool.and_false, Bool.false_eq_true, if_false, directive?_of_strip h,
    readLines_started]

theorem readLines_data {raw : String} (hraw : Text.isBlankText raw = false)
    (h : ∀ text, Text.strip raw ≠ "package:" ++ text) (rest : List String) :
    readLines false config (raw :: rest) =
      pure ⟨config.package, config.declarations ++ said (raw :: rest)⟩ := by
  rw [readLines, isBlankText_dropLineEnd, hraw]
  simp only [Bool.not_false, Bool.and_false, Bool.false_eq_true, if_false, directive?_eq_none h,
    readLines_started, said_cons, List.append_assoc]

end ReadLines

/-- What lines are read as. -/
inductive Reads : List String → Config → Prop
  | blank {lines : List String} (hblank : ∀ raw ∈ lines, Text.isBlankText raw = true) :
      Reads lines ⟨none, []⟩
  | directive {blank rest : List String} {raw text : String}
      (hblank : ∀ raw ∈ blank, Text.isBlankText raw = true)
      (hraw : Text.strip raw = "package:" ++ text) :
      Reads (blank ++ raw :: rest) ⟨named text, said rest⟩
  | data {blank rest : List String} {raw : String}
      (hblank : ∀ raw ∈ blank, Text.isBlankText raw = true)
      (hraw : Text.isBlankText raw = false) (hno : ∀ text, Text.strip raw ≠ "package:" ++ text) :
      Reads (blank ++ raw :: rest) ⟨none, said (raw :: rest)⟩

theorem Reads.value_readLines {lines : List String} {config : Config} (h : Reads lines config) :
    (readLines false empty lines).value = config := by
  cases h with
  | blank hblank =>
    rw [← List.append_nil lines, readLines_blank empty hblank]
    rfl
  | directive hblank hraw =>
    rw [readLines_blank empty hblank, readLines_directive empty hraw]
    simp only [Logged.bind_value, Logged.pure_value, empty, List.nil_append]
  | data hblank hraw hno =>
    rw [readLines_blank empty hblank, readLines_data empty hraw hno]
    simp only [Logged.pure_value, empty, List.nil_append]

theorem exists_first_line (lines : List String) :
    (∀ raw ∈ lines, Text.isBlankText raw = true) ∨
      ∃ blank raw rest, lines = blank ++ raw :: rest ∧
        (∀ raw ∈ blank, Text.isBlankText raw = true) ∧ Text.isBlankText raw = false := by
  induction lines with
  | nil => exact .inl fun _ h => absurd h List.not_mem_nil
  | cons raw rest ih =>
    cases hraw : Text.isBlankText raw with
    | false => exact .inr ⟨[], raw, rest, rfl, fun _ h => absurd h List.not_mem_nil, hraw⟩
    | true =>
      rcases ih with hall | ⟨blank, first, tail, rfl, hblank, hfirst⟩
      · exact .inl (List.forall_mem_cons.mpr ⟨hraw, hall⟩)
      · exact .inr ⟨raw :: blank, first, tail, rfl, List.forall_mem_cons.mpr ⟨hraw, hblank⟩, hfirst⟩

theorem exists_reads (lines : List String) : ∃ config, Reads lines config := by
  rcases exists_first_line lines with hall | ⟨blank, raw, rest, rfl, hblank, hraw⟩
  · exact ⟨_, .blank hall⟩
  · by_cases hdirective : ∃ text, Text.strip raw = "package:" ++ text
    · obtain ⟨text, htext⟩ := hdirective
      exact ⟨_, .directive hblank htext⟩
    · exact ⟨_, .data hblank hraw (not_exists.mp hdirective)⟩

theorem reads_iff (lines : List String) (config : Config) :
    Reads lines config ↔ config = (readLines false empty lines).value := by
  constructor
  · exact fun h => h.value_readLines.symm
  · rintro rfl
    obtain ⟨config, h⟩ := exists_reads lines
    rwa [h.value_readLines]

/-- Behind a line that is not blank every line is read by itself. -/
theorem readLines_append {front : List String}
    (h : ∃ raw ∈ front, Text.isBlankText raw = false) (back : List String) :
    (readLines false empty (front ++ back)).value =
      ⟨(readLines false empty front).value.package,
        (readLines false empty front).value.declarations ++ said back⟩ := by
  rcases exists_first_line front with hall | ⟨blank, raw, rest, rfl, hblank, hraw⟩
  · obtain ⟨raw, hmem, hraw⟩ := h
    simp [hall raw hmem] at hraw
  · rw [List.append_assoc, List.cons_append, readLines_blank empty hblank,
      readLines_blank empty hblank]
    by_cases hdirective : ∃ text, Text.strip raw = "package:" ++ text
    · obtain ⟨text, htext⟩ := hdirective
      rw [readLines_directive empty htext, readLines_directive empty htext, said_append]
      simp only [Logged.bind_value, Logged.pure_value, List.append_assoc]
    · have hno := not_exists.mp hdirective
      rw [readLines_data empty hraw hno, readLines_data empty hraw hno, ← List.cons_append,
        said_append]
      simp only [Logged.pure_value, List.append_assoc]

theorem ofReading_value (r : Reading) :
    (ofReading r).value = (readLines false empty r.lines).value := by
  unfold ofReading
  cases h : r.failure <;> rfl

theorem readLines_log (started : Bool) (config : Config) (lines : List String) :
    ∀ n ∈ (readLines started config lines).log, ∃ package, n = .packageRead package := by
  induction lines generalizing started config with
  | nil => simp [readLines]
  | cons raw rest ih =>
    simp only [readLines]
    split
    · exact ih _ _
    · split
      · simp only [Logged.bind_log, Logged.tell_log, List.mem_append, List.mem_singleton]
        rintro n (rfl | hn)
        · exact ⟨_, rfl⟩
        · exact ih _ _ n hn
      · exact ih _ _

inductive Tells : Notice → Prop
  | package (package : Option String) : Tells (.packageRead package)
  | unreadable (reason : String) : Tells (.configUnreadable reason)

theorem ofReading_tells (r : Reading) : ∀ n ∈ (ofReading r).log, Tells n := by
  simp only [ofReading, Logged.bind_log, List.mem_append]
  rintro n (hn | hn)
  · obtain ⟨package, rfl⟩ := readLines_log _ _ _ n hn
    exact .package package
  · cases hf : r.failure with
    | none => simp [hf] at hn
    | some reason =>
      obtain rfl : n = .configUnreadable reason := by simpa [hf] using hn
      exact .unreadable reason

theorem readLines_warnings (started : Bool) (config : Config) (lines : List String) :
    (readLines started config lines).log.filter (·.level? = some .warning) = [] := by
  rw [List.filter_eq_nil_iff]
  intro n hn
  obtain ⟨package, rfl⟩ := readLines_log started config lines n hn
  simp [Notice.level?]

theorem ofReading_warnings (r : Reading) :
    (ofReading r).log.filter (·.level? = some .warning) =
      (r.failure.map .configUnreadable).toList := by
  rw [ofReading, Logged.bind_log, List.filter_append, readLines_warnings]
  cases h : r.failure <;> rfl

/-- Of lines that break off after the first `n`, or never: what was delivered is read, as if there
had been no more, and a break is one warning. Behind the first line that is not blank the lines are
read one by one. -/
theorem ofReading_reads (lines : List String) (failure : Option (ℕ × String)) :
    let delivered := match failure with
      | some (n, _) => lines.take n
      | none => lines
    let read := ofReading (.ofLines lines failure)
    (∀ config, Reads delivered config ↔ config = read.value) ∧
    read.value = (ofReading (.ofLines delivered none)).value ∧
    read.log.filter (·.level? = some .warning) = (match failure with
      | some (n, reason) => if n ≤ lines.length then [.configUnreadable reason] else []
      | none => []) ∧
    ∀ front back, delivered = front ++ back → (∃ raw ∈ front, Text.isBlankText raw = false) →
      read.value = ⟨(ofReading (.ofLines front none)).value.package,
        (ofReading (.ofLines front none)).value.declarations ++ said back⟩ := by
  intro delivered read
  have hlines : (Reading.ofLines lines failure).lines = delivered := by
    rcases failure with _ | ⟨n, reason⟩
    · rfl
    · by_cases hn : n ≤ lines.length
      · rw [Reading.ofLines, if_pos hn]
      · rw [Reading.ofLines, if_neg hn]
        exact (List.take_of_length_le (Nat.le_of_not_le hn)).symm
  have hvalue : read.value = (readLines false empty delivered).value := by
    rw [ofReading_value, hlines]
  refine ⟨fun config => ?_, ?_, ?_, fun front back hcut hfront => ?_⟩
  · rw [hvalue, reads_iff]
  · rw [hvalue, ofReading_value, Reading.ofLines]
  · rw [ofReading_warnings]
    rcases failure with _ | ⟨n, reason⟩
    · rfl
    · by_cases hn : n ≤ lines.length
      · simp only [Reading.ofLines, if_pos hn, Option.map_some, Option.toList_some]
      · simp only [Reading.ofLines, if_neg hn, Option.map_none, Option.toList_none]
  · rw [hvalue, hcut, readLines_append hfront, ofReading_value, Reading.ofLines]

def Sample.lines : List String :=
  [" \n", " package: a.b \r\n", "G,x,TRUE,boolean\r\n", "G,,true,boolean\n", ",y,1,boolean\r\r\n"]

theorem sample_reads_delivered :
    let read := ofReading (.ofLines Sample.lines (some (4, "gone")))
    Reads (Sample.lines.take 4) read.value ∧
    read.log.filter (·.level? = some .warning) = [.configUnreadable "gone"] ∧
    read.value = ⟨some "a.b", said (Sample.lines.drop 2 |>.take 2)⟩ ∧
    read.value.declarations = [⟨"G", "x", .boolean true, none, by decide⟩] := by
  intro read
  obtain ⟨hreads, -, hwarned, hparts⟩ := ofReading_reads Sample.lines (some (4, "gone"))
  have hfront : (ofReading (.ofLines (Sample.lines.take 2) none)).value = ⟨some "a.b", []⟩ := by
    decide +kernel
  have hread := hparts (Sample.lines.take 2) (Sample.lines.drop 2 |>.take 2) (by decide)
    ⟨" package: a.b \r\n", by decide, by decide⟩
  rw [hfront] at hread
  exact ⟨(hreads _).mpr rfl, hwarned, hread, by decide +kernel⟩

end Config

end PreferenceAccessors
