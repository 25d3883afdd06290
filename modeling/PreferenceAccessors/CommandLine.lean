import PreferenceAccessors.Config
import PreferenceAccessors.Session
import PreferenceAccessors.Text.Digit

/-!
The words of a command line. A long flag may be cut short as long as one flag
begins with it, its value follows an equals sign or is the next word; a short
flag may carry its value, also behind an equals sign, or further short flags.
Two dashes alone end the flags; attached to a flag they leave it with no value
at all. The one word that is no flag is the input.

All words are told apart before any is acted on. A word that looks like a flag
is no value, but a negative number or a word with a space in it is no flag
unless it names one.
-/

namespace PreferenceAccessors

inductive Flag
  | help
  | debug
  | output
  | sourcePath
  | configName
  | package
deriving DecidableEq, Repr

namespace Flag

def all : List Flag := [help, debug, output, sourcePath, configName, package]

def long : Flag → String
  | help => "--help"
  | debug => "--debug"
  | output => "--output"
  | sourcePath => "--source-path"
  | configName => "--config-name"
  | package => "--package"

def short? : Flag → Option String
  | help => some "-h"
  | debug => some "-d"
  | output => some "-o"
  | sourcePath => some "-s"
  | configName => none
  | package => none

def takesValue : Flag → Bool
  | help => false
  | debug => false
  | _ => true

def display (f : Flag) : String :=
  match f.short? with
  | some short => short ++ "/" ++ f.long
  | none => f.long

def named? (word : String) : Option Flag :=
  all.find? fun f => f.long == word || f.short? == some word

end Flag

inductive UsageError
  | ambiguous (word : String) (flags : List Flag)
  | valueExpected (flag : Flag)
  | valueIgnored (flag : Flag) (value : String)
  | inputMissing
  | unrecognized (words : List String)
deriving DecidableEq, Repr

namespace UsageError

def text : UsageError → String
  | ambiguous word flags =>
    "ambiguous option: " ++ word ++ " could match " ++ ", ".intercalate (flags.map Flag.long)
  | valueExpected flag => "argument " ++ flag.display ++ ": expected one argument"
  | valueIgnored flag value =>
    "argument " ++ flag.display ++ ": ignored explicit argument " ++ Text.quoted value
  | inputMissing => "the following arguments are required: input"
  | unrecognized words => "unrecognized arguments: " ++ " ".intercalate words

def message (e : UsageError) : String :=
  "prefgen: error: " ++ e.text

end UsageError

/-- A word told apart: two dashes alone, a flag by one of its spellings with the text attached
to it, a word that looks like a flag and is none, or any other. -/
inductive Word
  | separator
  | flag (name : Flag) (isShort : Bool) (attached : Option String)
  | strange
  | plain
deriving DecidableEq, Repr

namespace Word

def splitEquals? (word : String) : Option (String × String) :=
  match word.toList.span (· ≠ '=') with
  | (before, _ :: after) => some (String.ofList before, String.ofList after)
  | _ => none

def isShortText (word : String) : Bool :=
  match word.toList with
  | '-' :: '-' :: _ => false
  | _ => true

/-- A number behind a dash; a line feed may end it. -/
def isNegativeNumber (word : String) : Bool :=
  let isDigit (c : Char) : Bool := FloatText.isDigit (Text.asciiDigit c)
  match Text.dropFinalNewline word.toList with
  | '-' :: rest => match rest.span isDigit with
    | (_ :: _, []) => true
    | (_, '.' :: places) => !places.isEmpty && places.all isDigit
    | _ => false
  | _ => false

def candidates (word : String) : List (Flag × Bool × Option String) :=
  if isShortText word then
    let short := String.ofList (word.toList.take 2)
    let attached := String.ofList (word.toList.drop 2)
    (Flag.all.filter (·.short? == some short)).map fun f => (f, true, some attached)
  else
    let (stem, attached) := match splitEquals? word with
      | some (stem, text) => (stem, some text)
      | none => (word, none)
    (Flag.all.filter fun f => stem.toList.isPrefixOf f.long.toList).map fun f =>
      (f, false, attached)

def classify (word : String) : Except UsageError Word :=
  if word.toList.head? ≠ some '-' ∨ word = "-" then .ok plain
  else match Flag.named? word with
    | some f => .ok (flag f (isShortText word) none)
    | none =>
      match (splitEquals? word).bind fun (stem, text) =>
          (Flag.named? stem).map fun f => flag f (isShortText stem) (some text) with
      | some w => .ok w
      | none => match candidates word with
        | [(f, isShort, attached)] => .ok (flag f isShort attached)
        | _ :: _ :: _ => .error (.ambiguous word ((candidates word).map (·.1)))
        | [] =>
          if isNegativeNumber word || word.toList.contains ' ' then .ok plain else .ok strange

def classifyAll : List String → Except UsageError (List (String × Word))
  | [] => .ok []
  | word :: rest =>
    if word = "--" then .ok ((word, separator) :: rest.map fun w => (w, plain))
    else do
      let w ← classify word
      let ws ← classifyAll rest
      .ok ((word, w) :: ws)

end Word

inductive FlagValue
  | text (value : String)
  | missing
deriving DecidableEq, Repr

def FlagValue.ofAttached (text : String) : FlagValue :=
  if text = "--" then missing else .text text

structure Options where
  input : Option String
  debug : Bool
  output : Option FlagValue
  sourcePath : List FlagValue
  configName : FlagValue
  package : FlagValue
deriving DecidableEq, Repr

namespace Options

def default : Options := ⟨none, false, none, [], .text defaultConfigName, .text defaultPackage⟩

def set (o : Options) (f : Flag) (value : FlagValue) : Options :=
  match f with
  | .help => o
  | .debug => { o with debug := true }
  | .output => { o with output := some value }
  | .sourcePath => { o with sourcePath := o.sourcePath ++ [value] }
  | .configName => { o with configName := value }
  | .package => { o with package := value }

end Options

inductive Request
  | help
  | generate (input : String) (options : Options)
deriving DecidableEq, Repr

namespace Request

/-- The flags of one word, each with its value. The last one may want the next word. -/
structure Cluster where
  flags : List (Flag × FlagValue)
  wanting : Option Flag
deriving DecidableEq, Repr

def Cluster.ofFlag (f : Flag) : Cluster :=
  if f.takesValue then ⟨[], some f⟩ else ⟨[(f, .missing)], none⟩

def Cluster.ofAttached (f : Flag) (isShort : Bool) : List Char → Except UsageError Cluster
  | [] => if f.takesValue then .ok ⟨[(f, .text "")], none⟩ else .error (.valueIgnored f "")
  | c :: rest =>
    let text := String.ofList (c :: rest)
    if f.takesValue then .ok ⟨[(f, .ofAttached text)], none⟩
    else if isShort then match Flag.named? (String.ofList ['-', c]) with
      | some next => do
        let cluster ← if rest.isEmpty then .ok (ofFlag next) else ofAttached next true rest
        .ok { cluster with flags := (f, .missing) :: cluster.flags }
      | none => .error (.valueIgnored f text)
    else .error (.valueIgnored f text)

structure State where
  options : Options
  helpAsked : Bool
  extras : List String

def act (s : State) (flags : List (Flag × FlagValue)) : State :=
  flags.foldl (fun s (f, value) =>
    if f = .help then { s with helpAsked := true }
    else { s with options := s.options.set f value }) s

def read (s : State) : List (String × Word) → Except UsageError State
  | [] => .ok s
  | (word, w) :: rest =>
    if s.helpAsked then .ok s
    else match w with
      | .strange => read { s with extras := s.extras ++ [word] } rest
      | .separator => match s.options.input, rest.head? with
        | none, some (input, _) =>
          read { s with options := { s.options with input := some input } } (rest.drop 1)
        | _, _ => read { s with extras := s.extras ++ [word] } rest
      | .plain => match s.options.input with
        | some _ => read { s with extras := s.extras ++ [word] } rest
        | none =>
          let s := { s with options := { s.options with input := some word } }
          match rest.head? with
          | some (_, .separator) => read s (rest.drop 1)
          | _ => read s rest
      | .flag f isShort attached => do
        let cluster ← match attached with
          | none => .ok (Cluster.ofFlag f)
          | some text => Cluster.ofAttached f isShort text.toList
        match cluster.wanting with
        | none => read (act s cluster.flags) rest
        | some last => match rest.head? with
          | some (value, .plain) => read (act s (cluster.flags ++ [(last, .text value)])) (rest.drop 1)
          | _ => .error (.valueExpected last)
termination_by words => words.length
decreasing_by all_goals (simp only [List.length_cons, List.length_drop]; omega)

def parse (words : List String) : Except UsageError Request := do
  let s ← read ⟨.default, false, []⟩ (← Word.classifyAll words)
  if s.helpAsked then .ok .help
  else match s.options.input with
    | none => .error .inputMissing
    | some input =>
      if s.extras = [] then .ok (.generate input s.options)
      else .error (.unrecognized s.extras)

end Request

end PreferenceAccessors
