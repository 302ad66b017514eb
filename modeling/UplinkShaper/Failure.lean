import UplinkShaper.Text.Digit
import UplinkShaper.Value

/-!
Failures, by cause. Every operation of the library that can fail says why with one
of these values, and `Failure.message` is the wording of each. A cause carries what
its wording shows, so messages are functions of causes and nothing else.
-/

namespace UplinkShaper

/-- The class handle of a minor number under the only qdisc. -/
def classHandle (minor : String) : String :=
  "1:" ++ minor

/-- Words joined by single blanks, as a command is shown. -/
def shownWords (words : List String) : String :=
  String.intercalate " " words

/-! ## The file system and commands -/

inductive FileFault
  | missing
  | busy
  | exists
  | notDirectory
  | isDirectory
  | nameTooLong
deriving DecidableEq, Repr

namespace FileFault

def number : FileFault → Nat
  | .missing => 2
  | .busy => 16
  | .exists => 17
  | .notDirectory => 20
  | .isDirectory => 21
  | .nameTooLong => 36

def description : FileFault → String
  | .missing => "No such file or directory"
  | .busy => "Device or resource busy"
  | .exists => "File exists"
  | .notDirectory => "Not a directory"
  | .isDirectory => "Is a directory"
  | .nameTooLong => "File name too long"

end FileFault

/-- A refusal of the system: of the file system, about one path or about moving
one to another, or of starting a command. -/
inductive SystemError
  | file (fault : FileFault) (path : String)
  | move (fault : FileFault) (source target : String)
  | command (text : String)
deriving DecidableEq, Repr

def SystemError.message : SystemError → String
  | .file fault path => s!"[Errno {fault.number}] {fault.description}: " ++ Text.quoted path
  | .move fault source target =>
      s!"[Errno {fault.number}] {fault.description}: " ++ Text.quoted source ++ " -> " ++
        Text.quoted target
  | .command text => text

/-- A command that was run and did not succeed. -/
structure CommandFailure where
  words : List String
  code : Int
  errors : String
deriving DecidableEq, Repr

namespace CommandFailure

/-- The wording for a command that should have changed something. -/
def applyMessage (failure : CommandFailure) : String :=
  let detail := Text.stripped failure.errors
  s!"command failed ({failure.code}): " ++ shownWords failure.words ++
    (if detail.isEmpty then "" else ": " ++ detail)

/-- The wording for a command that should have listed something. -/
def listingMessage (failure : CommandFailure) : String :=
  shownWords failure.words ++ s!" exited {failure.code}: " ++ Text.stripped failure.errors

end CommandFailure

/-! ## Class trees -/

/-- Why tiers do not make a class tree. -/
inductive AllocationCause
  | capacityNotPositive
  | idNotPositive
  | idOfRoot
  | idTooWide
  | idRepeated
  | reservedRate
  | shareMissing
  | shareRange
  | sharesExceed (parent : Number) (total : Double)
  | parentMissing (parent : Number)
  | parentCycle
  | rateNotPositive
  | rateExceedsLink (rate capacity : Int)
deriving DecidableEq, Repr

/-- A class tree that cannot be built. The tier is null where none is at fault. -/
structure AllocationError where
  cause : AllocationCause
  tier : Value
  value : Value
deriving Repr

namespace AllocationCause

def message : AllocationCause → String
  | .capacityNotPositive => "link capacity must be a positive integer"
  | .idNotPositive => "tier id must be a positive integer"
  | .idOfRoot => "id 1 is reserved for the root class"
  | .idTooWide => "tier id does not fit a classid minor"
  | .idRepeated => "duplicate tier id"
  | .reservedRate => "reserved tier needs exactly one of rate_kbps or rate_percent"
  | .shareMissing => "percentage tier needs a share"
  | .shareRange => "share must be between 0 and 100"
  | .sharesExceed parent total =>
      s!"shares under {classHandle parent.text} sum to {total.general}%, above 100%"
  | .parentMissing parent => s!"parent {classHandle parent.text} does not exist"
  | .parentCycle => "tier is part of a parent cycle"
  | .rateNotPositive => "computed rate must be positive"
  | .rateExceedsLink rate capacity =>
      s!"computed rate {rate}kbit exceeds link capacity {capacity}kbit"

/-- Whether the numbers in a message can be written. -/
def isWritable : AllocationCause → Bool
  | .sharesExceed parent _ | .parentMissing parent => parent.isWritable
  | .rateExceedsLink rate capacity =>
      (Number.whole rate).isWritable && (Number.whole capacity).isWritable
  | _ => true

end AllocationCause

/-- A message about a tier names it first. -/
def tierMessage (tier : Value) (message : String) : String :=
  match tier with
  | .null => message
  | tier => "tier " ++ tier.plain ++ ": " ++ message

def AllocationError.message (error : AllocationError) : String :=
  tierMessage error.tier error.cause.message

/-- A sustained rate that is absent or not positive. -/
structure CurveError where
  tier : Value
  value : Value
deriving Repr

def CurveError.message (error : CurveError) : String :=
  tierMessage error.tier "sustained rate must be positive"

/-! ## Values that cannot be read -/

/-- A value that is not of the form its place asks for. -/
inductive InvalidValue
  | priority (value : Value)
  | direction (value : Value)
  | tierKind (value : Value)
  | numeral (error : Text.NumeralError)
  /-- A whole number with more digits than are written. -/
  | unwritable
  | noWholePart
  | calendar (error : CalendarError)
  | address (text : Value)
  | network (text : Value)
  | leafQueue (name : String)
  | listing (name : String)
  | interval
  /-- A path without a last component. -/
  | emptyName (path : String)
  | nullCharacter
  | codePoint
  | digits (base : Nat) (text : String)
  | decimal (text : String)
deriving Repr

namespace InvalidValue

def calendarMessage : CalendarError → String
  | .yearRange year => s!"year {year} is out of range"
  | .monthRange => "month must be in 1..12"
  | .dayRange => "day is out of range for month"
  | .hourRange => "hour must be in 0..23"
  | .minuteRange => "minute must be in 0..59"
  | .secondRange => "second must be in 0..59"
  | .offsetRange seconds =>
      "offset must be a timedelta strictly between -timedelta(hours=24) and " ++
        s!"timedelta(hours=24), not {Value.offsetSpan seconds}."

def limitMessage (detail : String) : String :=
  s!"Exceeds the limit ({Text.digitLimit} digits) for integer string conversion{detail}; " ++
    "use sys.set_int_max_str_digits() to increase the limit"

def message : InvalidValue → String
  | .priority value => "Unknown priority class: " ++ value.literal
  | .direction value => value.literal ++ " is not a valid Direction"
  | .tierKind value => value.literal ++ " is not a valid TierKind"
  | .numeral (.invalid text) => "invalid literal for int() with base 10: " ++ Text.quoted text
  | .numeral (.tooLong count) => limitMessage s!": value has {count} digits"
  | .unwritable => limitMessage ""
  | .noWholePart => "cannot convert float NaN to integer"
  | .calendar error => calendarMessage error
  | .address text => text.literal ++ " does not appear to be an IPv4 or IPv6 address"
  | .network text => text.literal ++ " does not appear to be an IPv4 or IPv6 network"
  | .leafQueue name => "Unsupported leaf qdisc: " ++ name
  | .listing name => "Cannot show " ++ Text.quoted name
  | .interval => "interval must be positive"
  | .emptyName path => s!"PosixPath({Text.quoted path}) has an empty name"
  | .nullCharacter => "embedded null byte"
  | .codePoint => "chr() arg not in range(0x110000)"
  | .digits base text => s!"invalid literal for int() with base {base}: {Text.quoted text}"
  | .decimal text => s!"could not convert string to float: {Text.quoted text}"

end InvalidValue

/-! ## Configuration -/

inductive ConfigurationError
  | unreadable (path : String) (error : SystemError)
  | malformed (path : String)
  | rootNotMapping
  /-- A value does not have the form that its place in the file asks for. -/
  | form (place : String) (message : String)
  | priority (tier value : Value)
  | mixedSides (sides : List String)
  | protocolMissing (entry : Value)
  | noPorts (protocol : Value)
  | portForm (value : Value)
  | portRange (value : Value)
  | portsReversed (value : Value)
  | address (text : String)
  | unknownTiers (ids : List Number)
  | innerTraffic (tier : Int)
  | boundBackends (device chain : String)
deriving Repr

namespace ConfigurationError

def message : ConfigurationError → String
  | .unreadable path error => s!"Cannot read configuration {path}: {error.message}"
  | .malformed path => s!"Invalid YAML in {path}"
  | .rootNotMapping => "Configuration root must be a mapping"
  | .form place message => s!"Invalid configuration at {place}: {message}"
  | .priority tier value =>
      "Tier " ++ tier.plain ++ ": " ++ (InvalidValue.priority value).message
  | .mixedSides sides =>
      "Match entry mixes " ++ (Value.list (sides.map .text)).literal ++
        "; use one entry per side"
  | .protocolMissing entry => "Match entry needs a protocol: " ++ entry.literal
  | .noPorts protocol => s!"Protocol {protocol.plain} has no ports"
  | .portForm value => "Invalid port or port range: " ++ value.literal
  | .portRange value => "Port out of range: " ++ value.literal
  | .portsReversed value => "Port range is reversed: " ++ value.literal
  | .address text => "Invalid address or subnet: " ++ Text.quoted text
  | .unknownTiers ids =>
      "Match rules reference unknown tiers: " ++ (Value.list (ids.map .number)).literal
  | .innerTraffic tier =>
      s!"Tier {classHandle (toString tier)} has child classes and cannot receive traffic"
  | .boundBackends device chain =>
      s!"backends are bound to {device} (chain {chain}) " ++
        "and were supplied without a factory to rebuild them; start a new session"

/-- Whether the numbers in a message can be written. -/
def isWritable : ConfigurationError → Bool
  | .priority tier value => tier.isWritable && value.isWritable
  | .protocolMissing entry => entry.isWritable
  | .portForm value | .portRange value | .portsReversed value => value.isWritable
  | _ => true

end ConfigurationError

/-! ## Sessions -/

/-- Why a reconfiguration is turned away while another one is under way. -/
inductive BusyError
  /-- The same session is being reconfigured. -/
  | session
  /-- Someone else holds the writer lock. -/
  | lockHeld (path : String)
deriving DecidableEq, Repr

def BusyError.message : BusyError → String
  | .session => "another reconfiguration is in progress"
  | .lockHeld path => s!"another process holds {path}"

/-- What a command needs before it starts. -/
inductive PreconditionError
  | privileges
  | tools (missing : List String)
  | device (name : String)
deriving DecidableEq, Repr

def PreconditionError.message : PreconditionError → String
  | .privileges => "this command requires root privileges"
  | .tools missing => "missing tools: " ++ shownWords missing
  | .device name => s!"interface {name} not found"

/-! ## All failures -/

/-- What a command was stopped by, other than the system refusing it. -/
inductive Interruption
  | subprocess (text : String)
  | timeout (text : String)
  | runtime (text : String)
  | keyboard
deriving DecidableEq, Repr

def Interruption.message : Interruption → String
  | .subprocess text => text
  | .timeout text => text
  | .runtime text => text
  | .keyboard => ""

/-- The kinds of scalars whose text may not be of the form that a tag asks for. -/
inductive TaggedKind
  | boolean
  | number
  | timestamp
deriving DecidableEq, Repr

inductive Failure
  | configuration (error : ConfigurationError)
  | allocation (error : AllocationError)
  | curve (error : CurveError)
  | apply (failure : CommandFailure)
  | listing (failure : CommandFailure)
  | busy (error : BusyError)
  | precondition (error : PreconditionError)
  | system (error : SystemError)
  | invalid (value : InvalidValue)
  | interrupted (interruption : Interruption)
  /-- A whole number without a finite double near it. -/
  | overflow
  /-- A value of a kind that an operation is not made for. -/
  | mismatch
  | key
  /-- A scalar that is not of the form that its tag asks for. -/
  | untagged (kind : TaggedKind)
  | document
deriving Repr

namespace Failure

def message : Failure → String
  | .configuration error => error.message
  | .allocation error => error.message
  | .curve error => error.message
  | .apply failure => failure.applyMessage
  | .listing failure => failure.listingMessage
  | .busy error => error.message
  | .precondition error => error.message
  | .system error => error.message
  | .invalid value => value.message
  | .interrupted interruption => interruption.message
  | .overflow | .mismatch | .key | .untagged _ | .document => ""

def ofArithmetic : ArithmeticError → Failure
  | .overflow => .overflow
  | .noWholePart => .invalid .noWholePart

def ofNumeral (error : Text.NumeralError) : Failure :=
  .invalid (.numeral error)

/-- A refusal of a configuration, unless a number in its message is too long to be
written. -/
def ofConfiguration (error : ConfigurationError) : Failure :=
  if error.isWritable then .configuration error else .invalid .unwritable

/-- A refusal of a class tree, unless a number in its message is too long to be
written. -/
def ofAllocation (error : AllocationError) : Failure :=
  if error.tier.isWritable && error.cause.isWritable then .allocation error
  else .invalid .unwritable

end Failure

def arithmetic (result : Except ArithmeticError α) : Except Failure α :=
  result.mapError .ofArithmetic

end UplinkShaper
