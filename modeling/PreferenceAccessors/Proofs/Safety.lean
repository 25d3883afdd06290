import PreferenceAccessors.Registry
import PreferenceAccessors.Proofs.FloatRoundTrip
import PreferenceAccessors.Proofs.Routed

/-!
What a pass may fail with. On its way it looks handlers up in a registry, checks
source fields and declarations as any untyped data is checked, and writes the
literals of defaults; each of these may fail by itself. `runFallibly` is the pass
in which such a failure ends everything. With the standard registry it is the
pass as it is, so none of them ever happens, and all that is left are refusals.
-/

namespace PreferenceAccessors

/-- A failure of one step that is no refusal of the pass. -/
inductive Failure
  | noHandler (kind : String)
  | invalidSource (refusal : Refusal)
  | noLiteral (error : LiteralError)
deriving DecidableEq

abbrev Fallible := ExceptT Failure Logged

namespace Fallible
variable {α β : Type}

def ofExcept (x : Except Failure α) : Fallible α :=
  ExceptT.mk (pure x)

theorem ofExcept_ok (a : α) : ofExcept (.ok a) = pure a := rfl

theorem lift_bind (x : Logged α) (f : α → Logged β) :
    (ExceptT.lift (x >>= f) : Fallible β) = ExceptT.lift x >>= fun a => ExceptT.lift (f a) := by
  apply ExceptT.ext
  simp

end Fallible

namespace Registry

def handler (r : Registry) (kind : Kind) : Except Failure Kind :=
  match r.get? kind.name with
  | some handler => .ok handler
  | none => .error (.noHandler kind.name)

theorem handler_standard (kind : Kind) : standard.handler kind = .ok kind := by
  cases kind <;> rfl

theorem kinds_standard : standard.kinds = Kind.all := rfl

end Registry

def Label.toValue (l : Label) : Value :=
  if l.isGarbled then .garbled l.text else .text l.text

theorem Checked.label_toValue (l : Label) : Checked.label l.toValue = .ok l := by
  obtain ⟨text, isGarbled⟩ := l
  cases isGarbled <;> rfl

theorem Checked.text_toValue (l : Label) : Checked.text l.toValue = .ok l.text := by
  rw [Checked.text, Checked.label_toValue]
  rfl

namespace SourceField

def toValue (owner : String) (name : Value) : Value :=
  .map [(.text "owner", .text owner), (.text "name", name)]

theorem check_toValue {name : Value} {text : String} (h : Checked.text name = .ok text)
    (owner : String) : check (toValue owner name) = .ok ⟨owner, text⟩ := by
  have howner : Checked.required [(.text "owner", .text owner), (.text "name", name)] "owner"
      Checked.text = .ok owner := rfl
  have hname : Checked.required [(.text "owner", .text owner), (.text "name", name)] "name"
      Checked.text = .ok text := by
    change Checked.below _ (Checked.text name) = _
    rw [h]
    rfl
  change (Checked.both _ _).map _ = _
  rw [howner, hname]
  rfl

end SourceField

namespace Declaration

def untyped (kind : Kind) (group : String) (key : Label) (value : Value) (source : SourceField) :
    Value :=
  .map [(.text "kind", .text kind.name), (.text "group_name", .text group),
    (.text "key", key.toValue), (.text "default", value),
    (.text "source_field", SourceField.toValue source.owner (.text source.name))]

theorem checkKind_name (kind : Kind) : checkKind (.text kind.name) = .ok kind := by
  cases kind <;> rfl

theorem checkKey_toValue (key : Label) : checkKey key.toValue = checkLabel key := by
  rw [checkKey, Checked.label_toValue]
  rfl

theorem ofValue_untyped (kind : Kind) (group : String) (key : Label) (value : Value)
    (source : SourceField) :
    ofValue (untyped kind group key value source) = make kind group key value (some source) := by
  set entries := [(Value.text "kind", Value.text kind.name), (.text "group_name", .text group),
    (.text "key", key.toValue), (.text "default", value),
    (.text "source_field", SourceField.toValue source.owner (.text source.name))]
  have hkind : Checked.required entries "kind" checkKind = .ok kind := by
    change Checked.below _ (checkKind (.text kind.name)) = _
    rw [checkKind_name]
    rfl
  have hgroup : Checked.optional entries "group_name" "" Checked.text = .ok group := rfl
  have hkey : Checked.required entries "key" checkKey =
      Checked.below (.named "key") (checkLabel key) := by
    rw [← checkKey_toValue]
    rfl
  have hdefault : Checked.required entries "default" (checkDefault (.ok kind)) =
      Checked.below (.named "default") (Default.check kind value) := rfl
  have hsource : Checked.optional entries "source_field" none
      (Checked.nullable SourceField.check) = .ok (some source) := by
    change Checked.below _
      ((SourceField.check (SourceField.toValue source.owner (.text source.name))).map some) = _
    rw [SourceField.check_toValue rfl]
    rfl
  change (Except.map _ (Checked.both (Checked.required entries "kind" checkKind) <|
    Checked.both (Checked.optional entries "group_name" "" Checked.text) <|
    Checked.both (Checked.required entries "key" checkKey) <|
    Checked.both (Checked.required entries "default"
      (checkDefault (Checked.required entries "kind" checkKind))) <|
    Checked.optional entries "source_field" none
      (Checked.nullable SourceField.check))).mapError _ = _
  rw [hkind, hgroup, hkey, hdefault, hsource, make]
  generalize Checked.below (.named "key") (checkLabel key) = checkedKey
  generalize Checked.below (.named "default") (Default.check kind value) = checkedDefault
  cases checkedKey <;> cases checkedDefault <;> rfl

end Declaration

/-- A value that passes for a default of a kind has a literal of that kind, narrowed or not. -/
theorem Default.literal_of_check {kind : Kind} {v : Value} {d : Default}
    (h : check kind v = .ok d) : kind.literal v = .ok d.literal := by
  unfold check Checked.refuse at h
  split at h
  case h_1 => exact Except.ok.inj h ▸ rfl
  case h_2 x =>
    rw [← Except.ok.inj h, literal, Binary.narrow_narrow]
    rfl
  case h_3 i =>
    split at h
    case h_1 x hx =>
      rw [← Except.ok.inj h, literal, Binary.narrow_narrow, Kind.literal, Value.toDouble, hx]
      rfl
    case h_2 => simp at h
  case h_4 i =>
    split_ifs at h with hrange
    have hback := Int32.toInt_ofInt_of_le hrange.1 hrange.2
    rw [← Except.ok.inj h, literal, hback]
    exact Kind.literal_int_of_lt (by omega)
  case h_5 i =>
    split_ifs at h with hrange
    have hback := Int64.toInt_ofInt_of_le hrange.1 hrange.2
    rw [← Except.ok.inj h, literal, hback]
    exact Kind.literal_long_of_lt (by omega)
  case h_6 => exact Except.ok.inj h ▸ rfl
  case h_7 => exact Except.ok.inj h ▸ rfl
  case h_8 => simp at h

theorem LiteralError.exists_map_eq_error {α β : Type} (f : α → β) {x : Except LiteralError α} :
    (∃ e, x.map f = .error e) ↔ ∃ e, x = .error e := by
  cases x <;> simp [Except.map]

theorem Value.written_raises_iff (v : Value) :
    (∃ e, v.written = .error e) ↔ v.isShown = false := by
  unfold written
  cases v.isShown <;> simp

namespace Kind

theorem string_literal_raises_iff (v : Value) :
    (∃ e, string.literal v = .error e) ↔ v.isShown = false :=
  (LiteralError.exists_map_eq_error _).trans v.written_raises_iff

theorem literal_int_raises_iff {kind : Kind} (hboolean : kind ≠ .boolean) (hfloat : kind ≠ .float)
    (i : Int) : (∃ e, kind.literal (.int i) = .error e) ↔ Value.shownBound ≤ i.natAbs := by
  have hwritten : (∃ e, (Value.int i).written = .error e) ↔ Value.shownBound ≤ i.natAbs := by
    rw [Value.written_raises_iff, Value.isShown, decide_eq_false_iff_not, not_lt]
  cases kind with
  | boolean => exact absurd rfl hboolean
  | float => exact absurd rfl hfloat
  | int => exact hwritten
  | long => exact (LiteralError.exists_map_eq_error _).trans hwritten
  | string => exact (LiteralError.exists_map_eq_error _).trans hwritten

/-- Beyond what validation lets through only the boolean kind has a literal of every value. -/
theorem literal_raises_iff (kind : Kind) :
    (∃ v e, kind.literal v = .error e) ↔ kind ≠ .boolean := by
  constructor
  · rintro ⟨v, e, h⟩ rfl
    simp [literal] at h
  · intro hboolean
    by_cases hfloat : kind = .float
    · subst hfloat
      exact ⟨.null, _, rfl⟩
    · obtain ⟨e, he⟩ := (literal_int_raises_iff hboolean hfloat Value.shownBound).mpr le_rfl
      exact ⟨_, e, he⟩

end Kind

theorem Kind.emit_own (d : Declaration) (given : Option SourceField) :
    d.kind.emit d given =
      .ok (⟨d.kind, d.key, d.default.literal, given <|> d.source⟩ : Accessor).text := by
  simp [Kind.emit, Declaration.kind, Default.literal_toValue, Except.map]

namespace SourceRoot

def checkSource (root : SourceRoot) (f : Field) : Except Failure SourceField :=
  (SourceField.check (SourceField.toValue root.name f.name.toValue)).mapError fun problems =>
    .invalidSource ⟨.sourceField, problems⟩

theorem checkSource_eq (root : SourceRoot) (f : Field) :
    root.checkSource f = .ok (root.sourceField f) := by
  rw [checkSource, SourceField.check_toValue (Checked.text_toValue f.name)]
  rfl

/-- The declaration of an annotated field. The kinds are those of the registry, in its order, and
a default that is not given is the zero of the handler. -/
def resolveFallibly (r : Registry) (root : SourceRoot) (f : Field) :
    Except Failure (Except PassError Declaration) := do
  let source ← root.checkSource f
  match r.kinds.findSome? fun k => (f.annotation? k.name).map fun a => (k, a) with
  | none => pure (.error (.unsupported source f.tags))
  | some (kind, a) =>
    let handler ← r.handler kind
    let declared := Declaration.untyped kind a.group (a.keyOr f.name) (a.valueFor handler) source
    pure ((Declaration.ofValue declared).mapError (.invalid kind source))

theorem resolveFallibly_standard (root : SourceRoot) (f : Field) :
    root.resolveFallibly .standard f = .ok (root.resolve f) := by
  rw [resolveFallibly, checkSource_eq, Registry.kinds_standard]
  change (match f.firstAnnotation? with | none => _ | some (kind, a) => _) = _
  cases hfirst : f.firstAnnotation? with
  | none =>
    rw [resolve_of_none hfirst]
    rfl
  | some first =>
    obtain ⟨kind, a⟩ := first
    rw [resolve_of_some hfirst]
    simp only [Registry.handler_standard, Declaration.ofValue_untyped, validate]
    rfl

end SourceRoot

def ElementSource.outcomesFallibly (r : Registry) (source : ElementSource) :
    List (Except Failure (Except PassError Declaration)) :=
  source.annotatedFields.map fun p => p.1.resolveFallibly r p.2

theorem ElementSource.outcomesFallibly_standard (source : ElementSource) :
    source.outcomesFallibly .standard = source.outcomes.map .ok := by
  simp [outcomesFallibly, outcomes_eq, SourceRoot.resolveFallibly_standard]

namespace GroupTable

def routeFallibly (r : Registry) (t : GroupTable) (d : Declaration) :
    Fallible (GroupTable × Option PassError) := do
  let handler ← Fallible.ofExcept (r.handler d.kind)
  let (group, t) ← ExceptT.lift (t.ensure d.group)
  let accessor := accessorName d.key
  if accessor = "" then ExceptT.lift (t.refuse (.unnamed d.key d.source))
  else if group.hasAccessor accessor then
    ExceptT.lift (t.refuse (.duplicate d.key d.source accessor group.name))
  else
    let fragment ← Fallible.ofExcept ((handler.emit d d.source).mapError .noLiteral)
    pure (t.append group.name fragment (some accessor), none)

theorem routeFallibly_standard (t : GroupTable) (d : Declaration) :
    t.routeFallibly .standard d = ExceptT.lift (t.route d) := by
  rw [routeFallibly, Registry.handler_standard, Fallible.ofExcept_ok, pure_bind, Kind.emit_source,
    route, Fallible.lift_bind]
  congr 1
  funext ensured
  obtain ⟨group, t⟩ := ensured
  dsimp only
  split_ifs <;> rfl

def routeAllFallibly (r : Registry) (t : GroupTable) :
    List (Except Failure (Except PassError Declaration)) →
      Fallible (GroupTable × Option PassError)
  | [] => pure (t, none)
  | item :: rest => do
    match ← Fallible.ofExcept item with
    | .error e => ExceptT.lift (t.refuse e)
    | .ok d =>
      let (t, e) ← t.routeFallibly r d
      match e with
      | some e => pure (t, some e)
      | none => t.routeAllFallibly r rest

theorem routeAllFallibly_standard (t : GroupTable) (items : List (Except PassError Declaration)) :
    t.routeAllFallibly .standard (items.map .ok) = ExceptT.lift (t.routeAll items) := by
  induction items generalizing t with
  | nil => rfl
  | cons item rest ih =>
    rw [List.map_cons, routeAllFallibly, Fallible.ofExcept_ok, pure_bind]
    cases item with
    | error e => rfl
    | ok d =>
      simp only [routeAll]
      rw [routeFallibly_standard, Fallible.lift_bind]
      congr 1
      funext routed
      obtain ⟨t, e⟩ := routed
      cases e with
      | some e => rfl
      | none => exact ih t

end GroupTable

namespace Session
variable {σ : Type}

/-- A run in which a failure of any step ends everything. -/
def runFallibly (r : Registry) (s : Session) (source : ElementSource)
    (resources : Option Resources) (sink : Sink σ) (state : σ) : Fallible (Ran σ) := do
  if s.completed then
    ExceptT.lift (Logged.tell .passSkipped)
    pure ⟨s, state, .ok []⟩
  else
    let config ← ExceptT.lift (s.loadConfig resources)
    let package := config.package.getD s.package
    let (groups, e) ← GroupTable.empty.routeAllFallibly r
      (source.outcomesFallibly r ++ config.declarations.map fun d => .ok (.ok d))
    match e with
    | some e => pure ⟨{ s with groups := .empty }, state, .error (.refused e)⟩
    | none =>
      ExceptT.lift (Logged.tell (.writing groups.groups.length package))
      let (outcome, state) ← ExceptT.lift (sink.writeGroups groups package state)
      match outcome with
      | .ok names => pure ⟨⟨s.configName, package, groups, true⟩, state, .ok names⟩
      | .error cause =>
        pure ⟨⟨s.configName, package, groups, false⟩, state, .error (.malformed cause)⟩

theorem runFallibly_standard (s : Session) (source : ElementSource)
    (resources : Option Resources) (sink : Sink σ) (state : σ) :
    s.runFallibly .standard source resources sink state =
      ExceptT.lift (s.run source resources sink state) := by
  unfold runFallibly run
  cases s.completed with
  | true => rfl
  | false =>
    -- Stage by stage both sides are one program, and only routing is another one.
    simp only [Bool.false_eq_true, if_false, Fallible.lift_bind]
    congr 1
    funext config
    have hitems : source.outcomesFallibly .standard ++
        config.declarations.map (fun d => Except.ok (.ok d)) =
        (source.outcomes ++ config.declarations.map Except.ok).map Except.ok := by
      rw [ElementSource.outcomesFallibly_standard, List.map_append, List.map_map]
      rfl
    rw [hitems, GroupTable.routeAllFallibly_standard]
    congr 1
    funext routed
    obtain ⟨groups, e⟩ := routed
    cases e with
    | some e => rfl
    | none =>
      simp only [Fallible.lift_bind]
      congr 1
      funext _
      congr 1
      funext written
      obtain ⟨outcome, state⟩ := written
      cases outcome <;> rfl

theorem run_returns_or_refused (s : Session) (source : ElementSource)
    (resources : Option Resources) {sink : Sink σ} (hsink : sink.OnlyRefuses) (state : σ) :
    (∃ names, (s.run source resources sink state).value.outcome = .ok names) ∨
      ∃ e, (s.run source resources sink state).value.outcome = .error (.refused e) := by
  cases hs : s.completed with
  | true =>
    left
    rw [run_completed source resources sink state hs]
    exact ⟨[], rfl⟩
  | false =>
    rcases routing_cases source resources (s := s) with ⟨ds, -, -, hrouted⟩ | ⟨e, -, hrouted⟩
    · left
      exact (run_of_onlyRefuses hs source resources hsink state hrouted).1
    · right
      rw [(run_of_refused source resources sink state hs hrouted).1]
      exact ⟨e, rfl⟩

/-- No lookup of a handler, no check of a source field and no literal of a run ever fails, and into
a sink that can always be asked it returns or is refused. A declaration that was checked is written
by the handler of its kind, and so is what was checked before it was narrowed, although no kind but
the boolean one has a literal of just any value, and integers of too many digits have no int, long
or string literal. -/
theorem run_fails_only_by_refusal (s : Session) (source : ElementSource)
    (resources : Option Resources) {sink : Sink σ} (hsink : sink.OnlyRefuses) (state : σ) :
    let ran := s.run source resources sink state
    (s.runFallibly .standard source resources sink state).run = .ok <$> ran ∧
    ((∃ names, ran.value.outcome = .ok names) ∨ ∃ e, ran.value.outcome = .error (.refused e)) ∧
    (∀ v d, Declaration.ofValue v = .ok d → ∀ given, ∃ text, d.kind.emit d given = .ok text) ∧
    (∀ kind v d, Default.check kind v = .ok d → kind.literal v = .ok d.literal) ∧
    (∀ kind : Kind, (∃ v e, kind.literal v = .error e) ↔ kind ≠ .boolean) ∧
    ∀ kind : Kind, kind ≠ .boolean → kind ≠ .float → ∀ i : Int,
      (∃ e, kind.literal (.int i) = .error e) ↔ Value.shownBound ≤ i.natAbs := by
  intro ran
  refine ⟨?_, ?_, ?_, ?_, Kind.literal_raises_iff, ?_⟩
  · rw [runFallibly_standard]
    rfl
  · exact run_returns_or_refused s source resources hsink state
  · intro v d _ given
    exact ⟨_, Kind.emit_own d given⟩
  · intro kind v d h
    exact Default.literal_of_check h
  · intro kind hboolean hfloat i
    exact Kind.literal_int_raises_iff hboolean hfloat i

def Sample.huge : ElementSource :=
  [none, some ⟨"A", .classElement,
    [none, some ⟨⟨"x", false⟩, .fieldElement, [("float", ⟨"G", none, .int (10 ^ 400)⟩)]⟩]⟩]

def Sample.breakingOff : Resources :=
  fun _ => .handed (.failingAfter 2 "read error" "package: a\nG,y,NaN,float\n")

theorem sample_huge_default_refused :
    MemorySink.sink.OnlyRefuses ∧
    ∃ ran, (Sample.session.runFallibly .standard Sample.huge (some Sample.breakingOff)
        MemorySink.sink .empty).run.value = .ok ran ∧
      ran.outcome = .error (.refused (.invalid .float ⟨"A", "x"⟩
        ⟨.declaration, [⟨[.named "default"], .floatOutOfRange⟩]⟩)) := by
  have h := run_fails_only_by_refusal Sample.session Sample.huge (some Sample.breakingOff)
    MemorySink.onlyRefuses .empty
  exact ⟨MemorySink.onlyRefuses, _, congrArg Logged.value h.1, by decide +kernel⟩

end Session

end PreferenceAccessors
