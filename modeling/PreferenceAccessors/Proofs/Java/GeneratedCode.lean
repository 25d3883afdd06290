import PreferenceAccessors.Group
import PreferenceAccessors.Proofs.AccessorName
import PreferenceAccessors.Proofs.FloatRoundTrip
import PreferenceAccessors.Proofs.Java.StringLiteral

/-!
The string literals of the generated code. A key, a text default and the name of
a group are written as literals; outside of these the accessors of a declaration
and the line of the store hold neither a quote nor a backslash, so a reader
finds exactly those literals and nothing gets out of one. The comment line, the
class line and the package line hold names as they are; they are not read here.
-/

namespace PreferenceAccessors

namespace Java

def IsPlain (s : String) : Prop := '"' ∉ s.toList ∧ '\\' ∉ s.toList

instance (s : String) : Decidable (IsPlain s) :=
  inferInstanceAs (Decidable ('"' ∉ s.toList ∧ '\\' ∉ s.toList))

theorem isPlain_of_all {s : String} {p : Char → Bool} (h : ∀ c ∈ s.toList, p c)
    (hquote : p '"' = false) (hbackslash : p '\\' = false) : IsPlain s :=
  ⟨fun hmem => by simp [h _ hmem] at hquote, fun hmem => by simp [h _ hmem] at hbackslash⟩

theorem IsPlain.append {s t : String} (hs : IsPlain s) (ht : IsPlain t) : IsPlain (s ++ t) := by
  simp only [IsPlain, String.toList_append, List.mem_append, not_or]
  exact ⟨⟨hs.1, ht.1⟩, hs.2, ht.2⟩

def IsCode (us : List CodeUnit) : Prop := quote ∉ us ∧ backslash ∉ us

theorem isCode_nil : IsCode [] := ⟨List.not_mem_nil, List.not_mem_nil⟩

theorem IsCode.append {us vs : List CodeUnit} (hus : IsCode us) (hvs : IsCode vs) :
    IsCode (us ++ vs) := by
  simp only [IsCode, List.mem_append, not_or]
  exact ⟨⟨hus.1, hvs.1⟩, hus.2, hvs.2⟩

theorem IsPlain.isCode {s : String} (h : IsPlain s) : IsCode (units s) :=
  ⟨not_mem_units (c := '"') (by decide) (by decide) h.1,
    not_mem_units (c := '\\') (by decide) (by decide) h.2⟩

/-- The string literals of a source in order: each begins at the first quote or backslash, and the
next is looked for where it ends. -/
inductive HasLiterals : List CodeUnit → List String → Prop
  | code {source : List CodeUnit} (h : IsCode source) : HasLiterals source []
  | literal {before source rest : List CodeUnit} {s : String} {ss : List String}
      (h : IsCode before) (hread : readLiteral source = some (units s, rest))
      (hrest : HasLiterals rest ss) : HasLiterals (before ++ source) (s :: ss)

theorem HasLiterals.plain_append {s : String} (h : IsPlain s) {r : List CodeUnit}
    {ss : List String} (hr : HasLiterals r ss) : HasLiterals (units s ++ r) ss := by
  cases hr with
  | code hcode => exact .code (h.isCode.append hcode)
  | literal hbefore hread hrest =>
    rw [← List.append_assoc]
    exact .literal (h.isCode.append hbefore) hread hrest

/-- Wherever it stands in front, the text adds exactly these literals to those that follow. -/
def Adds (s : String) (ss : List String) : Prop :=
  ∀ r rs, HasLiterals r rs → HasLiterals (units s ++ r) (ss ++ rs)

namespace Adds

theorem plain {s : String} (h : IsPlain s) : Adds s [] :=
  fun _ _ hr => hr.plain_append h

theorem literal (s : String) : Adds (JavaString.literal s) [s] := by
  intro r rs hr
  have hliteral := HasLiterals.literal isCode_nil (readLiteral_literal_append s r) hr
  rwa [List.nil_append] at hliteral

theorem append {s t : String} {ss ts : List String} (hs : Adds s ss) (ht : Adds t ts) :
    Adds (s ++ t) (ss ++ ts) := by
  intro r rs hr
  rw [units_append, List.append_assoc, List.append_assoc]
  exact hs _ _ (ht r rs hr)

theorem append_plain {s t : String} {ss : List String} (hs : Adds s ss) (ht : IsPlain t) :
    Adds (s ++ t) ss := by
  have h := hs.append (plain ht)
  rwa [List.append_nil] at h

theorem hasLiterals {s : String} {ss : List String} (h : Adds s ss) : HasLiterals (units s) ss := by
  have hall := h [] [] (.code isCode_nil)
  rwa [List.append_nil, List.append_nil] at hall

end Adds

theorem isPlain_accessorName (key : String) : IsPlain (accessorName key) :=
  isPlain_of_all (fun _ => isAlphanum_of_mem_accessorName) (by decide) (by decide)

theorem isPlain_toString_nat (n : ℕ) : IsPlain (toString n) := by
  have hdigits : ∀ c ∈ (toString n).toList, c.isDigit := by
    intro c hc
    change c ∈ n.repr.toList at hc
    rw [Nat.toList_repr] at hc
    exact Nat.isDigit_of_mem_toDigits (by decide) (by decide) hc
  exact isPlain_of_all hdigits (by decide) (by decide)

theorem isPlain_toString (i : ℤ) : IsPlain (toString i) := by
  cases i with
  | ofNat n => exact isPlain_toString_nat n
  | negSucc n =>
    have hminus : IsPlain "-" := by decide
    exact hminus.append (isPlain_toString_nat (n + 1))

theorem isPlain_write (x : Binary) : IsPlain (FloatLiteral.write x) := by
  cases x with
  | nan => decide
  | infinite negative => cases negative <;> decide
  | finite negative units =>
    have hspelled : ∀ c ∈ (FloatLiteral.write (.finite negative units)).toList,
        FloatText.isDigit c || FloatText.letters.contains c := by
      intro c hc
      simpa using (FloatLiteral.isLiteral_write negative units).spelled c hc
    exact isPlain_of_all (p := fun c => FloatText.isDigit c || FloatText.letters.contains c)
      hspelled (by decide) (by decide)

end Java

def Default.texts : Default → List String
  | string s => [s]
  | _ => []

namespace Declaration

def uncommented (d : Declaration) : Accessor :=
  ⟨d.kind, d.key, d.default.literal, none⟩

def commentLine (d : Declaration) : String :=
  Accessor.comment { d.uncommented with source := d.source }

theorem fragment_eq (d : Declaration) : d.fragment = d.commentLine ++ d.uncommented.text := by
  have hcomment : (⟨d.kind, d.key, d.default.literal, d.source⟩ : Accessor).comment =
      d.commentLine := rfl
  have hnone : d.uncommented.comment = "" := rfl
  rw [fragment, Accessor.text, Accessor.text, hcomment, hnone, String.empty_append]
  simp only [String.append_assoc]
  rfl

end Declaration

namespace Java

theorem adds_default (d : Default) : Adds d.literal d.texts := by
  cases d with
  | boolean b => cases b <;> exact .plain (by decide)
  | float x => exact .plain (isPlain_write x.narrow)
  | int i => exact .plain (isPlain_toString i.toInt)
  | long i => exact .plain ((isPlain_toString i.toInt).append (by decide))
  | string s => exact .literal s

theorem isPlain_javaType (k : Kind) : IsPlain k.javaType := by
  cases k <;> decide

theorem isPlain_storeMethod (k : Kind) : IsPlain k.storeMethod := by
  cases k <;> decide

theorem adds_getter (d : Declaration) : Adds d.uncommented.getter (d.key :: d.default.texts) := by
  have hopen : IsPlain ("  public static " ++ d.kind.javaType ++ " get" ++ accessorName d.key ++
      "() \x7b\n" ++ "    return sPreferences.get" ++ d.kind.storeMethod ++ "(") := by
    refine .append (.append (.append (.append (.append (.append (.append ?_ ?_) ?_) ?_) ?_) ?_) ?_) ?_
    exacts [by decide, isPlain_javaType _, by decide, isPlain_accessorName _, by decide,
      by decide, isPlain_storeMethod _, by decide]
  have hkey := ((Adds.plain hopen).append (.literal d.key)).append_plain (t := ", ") (by decide)
  exact ((hkey.append (adds_default d.default)).append_plain (by decide)).append_plain (by decide)

theorem adds_setter (d : Declaration) : Adds d.uncommented.setter [d.key] := by
  have hopen : IsPlain ("  public static void set" ++ accessorName d.key ++ "(" ++
      d.kind.javaType ++ " value) \x7b\n" ++ "    sPreferences.edit().put" ++
      d.kind.storeMethod ++ "(") := by
    refine .append (.append (.append (.append (.append (.append (.append ?_ ?_) ?_) ?_) ?_) ?_) ?_) ?_
    exacts [by decide, isPlain_accessorName _, by decide, isPlain_javaType _, by decide,
      by decide, isPlain_storeMethod _, by decide]
  have hkey := (Adds.plain hopen).append (.literal d.key)
  exact (hkey.append_plain (by decide)).append_plain (by decide)

theorem adds_uncommented (d : Declaration) :
    Adds d.uncommented.text (d.key :: d.default.texts ++ [d.key]) := by
  have hcomment : Adds d.uncommented.comment [] := .plain (s := "") (by decide)
  exact ((hcomment.append (adds_getter d)).append_plain (by decide)).append (adds_setter d)

end Java

namespace Group

def storeLine (name : String) : String :=
  "  private static final SharedPreferences sPreferences = " ++
    "(SharedPreferences) ProviderContext.getInstance().get(" ++ JavaString.literal name ++ ");"

theorem preamble_eq (g : Group) :
    g.preamble = "public final class " ++ g.name ++ " \x7b\n" ++ storeLine g.name := by
  have hassoc : ∀ a b c d e : String, a ++ b ++ c ++ d ++ e = a ++ (b ++ c ++ d ++ e) := by
    simp [String.append_assoc]
  exact hassoc _ _ _ _ _

end Group

namespace Java

theorem adds_storeLine (name : String) : Adds (Group.storeLine name) [name] := by
  have hopen : IsPlain ("  private static final SharedPreferences sPreferences = " ++
      "(SharedPreferences) ProviderContext.getInstance().get(") :=
    .append (by decide) (by decide)
  exact ((Adds.plain hopen).append (.literal name)).append_plain (by decide)

/-- Whatever follows a literal, a reader takes exactly the literal and has its text, and nothing
between the quotes ends it early, before or after the translation of unicode escapes. In the
generated code the literals are the keys, the text defaults and, in the line of the store, the
name of the group. -/
theorem readLiteral_generated :
    (∀ (s : String) (r : List CodeUnit),
      readLiteral (units (JavaString.literal s) ++ r) = some (units s, r) ∧
      ∃ raw text, units (JavaString.literal s) = quote :: (raw ++ [quote]) ∧
        (inputs (units (JavaString.literal s))).map Input.unit = quote :: (text ++ [quote]) ∧
        IsClosed raw ∧ IsClosed text) ∧
    (∀ d : Declaration, d.fragment = d.commentLine ++ d.uncommented.text ∧
      HasLiterals (units d.uncommented.text) (d.key :: d.default.texts ++ [d.key])) ∧
    ∀ g : Group,
      g.preamble = "public final class " ++ g.name ++ " \x7b\n" ++ Group.storeLine g.name ∧
      HasLiterals (units (Group.storeLine g.name)) [g.name] :=
  ⟨fun s r => ⟨readLiteral_literal_append s r, exists_closed_literal s⟩,
    fun d => ⟨d.fragment_eq, (adds_uncommented d).hasLiterals⟩,
    fun g => ⟨g.preamble_eq, (adds_storeLine g.name).hasLiterals⟩⟩

end Java

end PreferenceAccessors
