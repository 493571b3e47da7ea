import Onboarding.IpAddress
import Onboarding.Log.Format
import Onboarding.Text.Split
/-!
# The command line — what the daemon is asked to do

A command line names a command and gives values to options. Some options belong to every
command and may stand at any word of it; they and the options of the server can also be
given by environment variables. What the line says goes before what the environment says,
and a later word before an earlier one.

A value has to fit its option wherever it is given. A variable is looked at once for each
word of the command behind which the line does not give the option itself, so a variable
that does not fit is refused even if the line gives the option behind another word.
-/

namespace Onboarding

namespace CommandLine

/-- An option; each takes a value. -/
inductive Flag where
  | config
  | dataDir
  | logLevel
  | logFormat
  | listen
  | broadcaster
  | mailEndpoint
  | mailKey
  | days
deriving DecidableEq, Repr

namespace Flag

/-- The name of an option, behind its dashes. -/
def name : Flag → String
  | config => "config"
  | dataDir => "data-dir"
  | logLevel => "log-level"
  | logFormat => "log-format"
  | listen => "listen-addr"
  | broadcaster => "blockchain-endpoint"
  | mailEndpoint => "mail-endpoint"
  | mailKey => "mail-api-key"
  | days => "days"

/-- The environment variable that can give the option. -/
def fromEnvironment : Flag → Option String
  | config => some "VULCAN_CONFIG"
  | dataDir => some "VULCAN_DATA_DIR"
  | logLevel => some "VULCAN_LOG_LEVEL"
  | logFormat => some "VULCAN_LOG_FORMAT"
  | listen => some "VULCAN_LISTEN_ADDR"
  | broadcaster => some "VULCAN_BLOCKCHAIN_ENDPOINT"
  | mailEndpoint => some "VULCAN_MAIL_ENDPOINT"
  | mailKey => some "VULCAN_MAIL_API_KEY"
  | days => none

/-- All options. -/
def all : List Flag :=
  [config, dataDir, logLevel, logFormat, listen, broadcaster, mailEndpoint, mailKey, days]

/-- The options of every command. -/
def shared : List Flag := [config, dataDir, logLevel, logFormat]

end Flag

/-- A number of 64 bits, which may have a plus sign. -/
def number? (s : String) : Option UInt64 :=
  let digits := match s.toList with
    | '+' :: r => r
    | cs => cs
  (decimalBelow? UInt64.size digits).map UInt64.ofNat

/-- Whether a value fits an option. -/
def Flag.accepts (value : String) : Flag → Bool
  | config => !value.isEmpty
  | dataDir => !value.isEmpty
  | logFormat => (LogFormat.ofName? value).isSome
  | listen => (ListenAddress.parse? value).isSome
  | days => (number? value).isSome
  | _ => true

/-- How far the words of a command go. -/
inductive Word where
  | start
  | serve
  | fraudDomain
  | addFraudDomain
  | referral
  | staleReferrals
deriving DecidableEq, Repr

namespace Word

/-- The options that may stand behind a word. -/
def flags : Word → List Flag
  | serve => Flag.shared ++ [.listen, .broadcaster, .mailEndpoint, .mailKey]
  | staleReferrals => Flag.shared ++ [.days]
  | _ => Flag.shared

/-- The words that may follow a word. -/
def next : Word → List (String × Word)
  | start => [("serve", serve), ("fraud-domain", fraudDomain), ("referral", referral)]
  | fraudDomain => [("add", addFraudDomain)]
  | referral => [("stale", staleReferrals)]
  | _ => []

/-- The texts that a command takes behind its last word. -/
def operands : Word → Nat
  | addFraudDomain => 1
  | _ => 0

/-- Whether a command may end with this word. -/
def isCommand (w : Word) : Bool := w.next.isEmpty

end Word

/-- Why no command is run. -/
inductive Refusal where
  /-- The line is no command. -/
  | misuse
  /-- The line asks for help. -/
  | help
deriving DecidableEq, Repr

/-- A line as it was read. -/
structure Line where
  /-- Each word of the command, with the options given behind it. -/
  words : List (Word × List (Flag × String))
  operands : List String
deriving Repr

/-! ## Reading -/

/-- Whether an argument is none that stands for a value. -/
def isDashed (arg : String) : Bool :=
  match arg.toList with
  | ['-'] => false
  | '-' :: _ => true
  | _ => false

/-- Whether an argument asks for help. -/
def asksHelp (arg : String) : Bool := arg == "--help" || "-h".toList.isPrefixOf arg.toList

/-- An option and the value written behind it, from behind the dashes on. -/
def splitFlag (body : List Char) : String × Option String :=
  match splitFirst? '=' body with
  | none => (String.ofList body, none)
  | some (name, value) => (String.ofList name, some (String.ofList value))

/-- The option of that name behind a word. -/
def flag? (w : Word) (name : String) : Option Flag := w.flags.find? (·.name == name)

/-- An option with its value, unless it was given before or the value does not fit. -/
def give (f : Flag) (value : String) (given : List (Flag × String)) :
    Except Refusal (List (Flag × String)) :=
  if (given.lookup f).isSome || !f.accepts value then .error .misuse
  else .ok (given ++ [(f, value)])

/-- The end of a line behind a word. -/
def finish (w : Word) (given : List (Flag × String)) (operands : List String) :
    Except Refusal Line :=
  if w.isCommand && operands.length = w.operands then .ok ⟨[(w, given)], operands⟩
  else .error .misuse

/-- The arguments behind a word; the options and texts that were read there so far come
first. -/
def readFrom (w : Word) (given : List (Flag × String)) (operands : List String) :
    List String → Except Refusal Line
  | [] => finish w given operands
  | arg :: rest =>
    if arg == "--" then finish w given (operands ++ rest)
    else if asksHelp arg then .error .help
    else if isDashed arg then
      match arg.toList with
      | '-' :: '-' :: body =>
        match splitFlag body with
        | (name, attached) =>
          match flag? w name, attached, rest with
          | none, _, _ => .error .misuse
          | some f, some value, rest =>
            match give f value given with
            | .error e => .error e
            | .ok given => readFrom w given operands rest
          | some _, none, [] => .error .misuse
          | some f, none, value :: rest =>
            if isDashed value then .error .misuse
            else match give f value given with
              | .error e => .error e
              | .ok given => readFrom w given operands rest
      | _ => .error .misuse
    else if w.isCommand then
      if operands.length < w.operands then readFrom w given (operands ++ [arg]) rest
      else .error .misuse
    else if arg == "help" then .error .help
    else match w.next.lookup arg with
      | none => .error .misuse
      | some next =>
        (readFrom next [] [] rest).map fun l => { l with words := (w, given) :: l.words }

/-! ## Values -/

/-- The values that the words of a line look for in the environment. -/
def lookedUp (env : List (String × String)) (l : Line) : List (Flag × String) :=
  l.words.flatMap fun (w, given) =>
    (w.flags.filter fun f => (given.lookup f).isNone).filterMap fun f =>
      (f.fromEnvironment.bind fun v => env.lookup v).map fun value => (f, value)

/-- The value of an option: the last one that the line gives, or else the variable's. -/
def value? (env : List (String × String)) (l : Line) (f : Flag) : Option String :=
  match (l.words.filterMap fun (_, given) => given.lookup f).getLast? with
  | some value => some value
  | none => (lookedUp env l).lookup f

end CommandLine

/-- What the server is told besides its configuration. -/
structure ServeOptions where
  listen : Option ListenAddress := none
  broadcaster : Option String := none
  mailEndpoint : Option String := none
  mailKey : Option String := none
deriving DecidableEq

/-- What the daemon is asked to do. -/
inductive Command where
  | serve (options : ServeOptions)
  | addFraudDomain (domain : String)
  | staleReferrals (days : Option UInt64)
deriving DecidableEq

/-- A command and the options of every command. -/
structure CommandLine where
  config : Option String := none
  dataDir : Option String := none
  logLevel : Option String := none
  logFormat : Option LogFormat := none
  command : Command
deriving DecidableEq

namespace CommandLine

/-- The command that a line with these values is. -/
def command? (value? : Flag → Option String) (operands : List String) : Word → Option Command
  | .serve => some (.serve
      { listen := (value? .listen).bind ListenAddress.parse?
        broadcaster := value? .broadcaster
        mailEndpoint := value? .mailEndpoint
        mailKey := value? .mailKey })
  | .addFraudDomain => operands.head?.map .addFraudDomain
  | .staleReferrals => some (.staleReferrals ((value? .days).bind number?))
  | _ => none

/-- What a list of arguments asks for in an environment. -/
def parse (env : List (String × String)) (args : List String) : Except Refusal CommandLine :=
  match readFrom .start [] [] args with
  | .error e => .error e
  | .ok l =>
    if !(lookedUp env l).all fun (f, value) => f.accepts value then .error .misuse
    else
      let value := value? env l
      match l.words.getLast?.bind fun (w, _) => command? value l.operands w with
      | none => .error .misuse
      | some command =>
        .ok { config := value .config, dataDir := value .dataDir, logLevel := value .logLevel,
              logFormat := (value .logFormat).bind LogFormat.ofName?, command }

end CommandLine

end Onboarding
