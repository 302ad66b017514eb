import UplinkShaper.Number.Reading
import UplinkShaper.Text.Parts

/-!
The words of a command line. Options come before the command they are for, or after it
where they are the command's own; a long name may be cut short as long as it stays the
only one, and short names may share a dash. Two dashes end the options. A negative
number and a word with a blank in it are never options.
-/

namespace UplinkShaper

inductive ConsoleCommand
  | start
  | stop
  | restart
  | reload
  | status (isJson : Bool)
  /-- Seconds between two looks. -/
  | monitor (interval : Double)
  | test
  | save (path : Option String)
  | help
deriving DecidableEq, Repr

structure Invocation where
  isDebug : Bool
  isVerbose : Bool
  isQuiet : Bool
  settings : Option String
  command : ConsoleCommand
deriving DecidableEq, Repr

/-- Why a command line asks for nothing. -/
inductive UsageEnd
  | help
  | mistake
deriving DecidableEq, Repr

namespace Arguments

inductive Flag
  | help
  | debug
  | verbose
  | quiet
  | settings
  | json
deriving DecidableEq, Repr

def Flag.hasValue (flag : Flag) : Bool :=
  flag = .settings

abbrev FlagNames := List (String × Flag)

def generalNames : FlagNames :=
  [("-h", .help), ("--help", .help), ("-d", .debug), ("--debug", .debug), ("-v", .verbose),
    ("--verbose", .verbose), ("-q", .quiet), ("--quiet", .quiet), ("-c", .settings),
    ("--config", .settings)]

def commandNames : FlagNames :=
  [("-h", .help), ("--help", .help)]

def statusNames : FlagNames :=
  commandNames ++ [("--json", .json)]

def flagOf? (names : FlagNames) (name : String) : Option Flag :=
  (names.find? fun (known, _) => known == name).map (·.2)

/-! ## Roles of words -/

/-- What follows the name of an option in its word. -/
inductive Attachment
  | nothing
  | assigned (value : List Char)
  /-- The letters after a short name: its value, or more short names. -/
  | letters (shown : List Char)
deriving DecidableEq, Repr

inductive Role
  | argument
  | separator
  | option (flag : Flag) (attached : Attachment)
  | unknownOption
deriving DecidableEq, Repr

def isNegativeNumber (word : List Char) : Bool :=
  match word with
  | '-' :: shown =>
      match shown.dropWhile Text.isDecimal with
      | [] => !shown.isEmpty
      | '.' :: places => !places.isEmpty && places.all Text.isDecimal
      | _ => false
  | _ => false

/-- The value after an equals sign, if there is one. -/
def assignment : Option (List Char) → Attachment
  | none => .nothing
  | some value => .assigned value

/-- The option that a name or the start of a long name stands for, with the value after
an equals sign. -/
def longRole (names : FlagNames) (word : List Char) : Except UsageEnd (Option Role) :=
  let name := word.takeWhile (· != '=')
  let attached := assignment ((Text.cut? '=' word).map (·.2))
  match names.filter fun (known, _) => name.isPrefixOf known.toList with
  | [] => .ok none
  | [(_, flag)] => .ok (some (.option flag attached))
  | _ => .error .mistake

/-- The option of the first letter, with the other letters attached. -/
def shortRole? (names : FlagNames) (word : List Char) : Option Role :=
  (flagOf? names (String.ofList (word.take 2))).map fun flag =>
    .option flag (.letters (word.drop 2))

/-- The role of a word that is not an option by its full name. -/
def otherRole (names : FlagNames) (word : List Char) : Except UsageEnd Role := do
  let role ←
    match word with
    | '-' :: '-' :: _ => longRole names word
    | _ => pure (shortRole? names word)
  match role with
  | some role => return role
  | none =>
      if isNegativeNumber word || word.contains ' ' then return .argument
      else return .unknownOption

def roleOf (names : FlagNames) (word : String) : Except UsageEnd Role :=
  if word = "-" ∨ !"-".toList.isPrefixOf word.toList then .ok .argument
  else
    match flagOf? names word, Text.cut? '=' word.toList with
    | some flag, _ => .ok (.option flag .nothing)
    | none, some (name, attached) =>
        match flagOf? names (String.ofList name) with
        | some flag => .ok (.option flag (.assigned attached))
        | none => otherRole names word.toList
    | none, none => otherRole names word.toList

structure Word where
  role : Role
  text : String
deriving DecidableEq, Repr

/-- The words of a command line with their roles. -/
def wordsOf (names : FlagNames) : List String → Except UsageEnd (List Word)
  | [] => .ok []
  | text :: rest =>
      if text = "--" then
        .ok ({ role := .separator, text := text } ::
          rest.map fun text => { role := .argument, text := text })
      else do
        let role ← roleOf names text
        return { role := role, text := text } :: (← wordsOf names rest)

/-! ## Options -/

/-- Flags that were given, and the words that are left. -/
structure Taken where
  flags : List (Flag × String)
  rest : List Word
  /-- Whether every short name is known. -/
  isComplete : Bool

def takeFlag (flag : Flag) (rest : List Word) : Except UsageEnd Taken :=
  if flag.hasValue then
    match rest with
    | { role := .argument, text := value } :: rest =>
        .ok { flags := [(flag, value)], rest := rest, isComplete := true }
    | _ => .error .mistake
  else .ok { flags := [(flag, "")], rest := rest, isComplete := true }

def takeAssigned (flag : Flag) (value : List Char) (rest : List Word) :
    Except UsageEnd Taken :=
  if flag.hasValue then
    .ok { flags := [(flag, String.ofList value)], rest := rest, isComplete := true }
  else .error .mistake

/-- Take a flag and the letters after it, which are its value or more short names. A
letter that is no name is left out together with those after it. -/
def takeLetters (names : FlagNames) (flag : Flag) (rest : List Word) :
    List Char → Except UsageEnd Taken
  | [] => takeFlag flag rest
  | letter :: letters =>
      if flag.hasValue then
        if letter = '=' then takeAssigned flag letters rest
        else takeAssigned flag (letter :: letters) rest
      else if letter = '-' ∨ letter = '=' then .error .mistake
      else
        match flagOf? names (String.ofList ['-', letter]) with
        | none => .ok { flags := [(flag, "")], rest := rest, isComplete := false }
        | some other =>
            (takeLetters names other rest letters).map fun taken =>
              { taken with flags := (flag, "") :: taken.flags }

def takeFlags (names : FlagNames) (flag : Flag) (attached : Attachment) (rest : List Word) :
    Except UsageEnd Taken :=
  match attached with
  | .nothing => takeFlag flag rest
  | .assigned value => takeAssigned flag value rest
  | .letters shown => takeLetters names flag rest shown

/-- Take an option. One for help ends the reading. -/
def takeOption (names : FlagNames) (flag : Flag) (attached : Attachment)
    (rest : List Word) : Except UsageEnd Taken :=
  match takeFlags names flag attached rest with
  | .error ending => .error ending
  | .ok taken =>
      if taken.flags.any fun (flag, _) => flag = .help then .error .help else .ok taken

theorem takeFlag_length_le {flag : Flag} {rest : List Word} {taken : Taken}
    (result : takeFlag flag rest = .ok taken) : taken.rest.length ≤ rest.length := by
  unfold takeFlag at result
  split at result
  · split at result
    · cases result; simp
    · cases result
  · cases result; simp

theorem takeAssigned_length_le {flag : Flag} {value : List Char} {rest : List Word}
    {taken : Taken} (result : takeAssigned flag value rest = .ok taken) :
    taken.rest.length ≤ rest.length := by
  unfold takeAssigned at result
  split at result <;> cases result
  simp

theorem exists_of_map_eq_ok {change : α → β} {result : Except ε α} {value : β}
    (equal : result.map change = .ok value) :
    ∃ before, result = .ok before ∧ change before = value := by
  cases result with
  | error => cases equal
  | ok before => cases equal; exact ⟨before, rfl, rfl⟩

theorem takeLetters_length_le {names : FlagNames} {rest : List Word}
    {letters : List Char} {flag : Flag} {taken : Taken}
    (result : takeLetters names flag rest letters = .ok taken) :
    taken.rest.length ≤ rest.length := by
  induction letters generalizing flag taken with
  | nil => exact takeFlag_length_le result
  | cons letter letters induction =>
      unfold takeLetters at result
      split at result
      · split at result <;> exact takeAssigned_length_le result
      · split at result
        · cases result
        · split at result
          · cases result; simp
          · obtain ⟨inner, equal, rfl⟩ := exists_of_map_eq_ok result
            have shorter := induction equal
            exact shorter

/-- An option takes words away and puts none back. -/
theorem takeOption_length_le {names : FlagNames} {flag : Flag} {attached : Attachment}
    {rest : List Word} {taken : Taken}
    (result : takeOption names flag attached rest = .ok taken) :
    taken.rest.length ≤ rest.length := by
  unfold takeOption at result
  split at result
  · cases result
  · rename_i inner equal
    split at result <;> cases result
    unfold takeFlags at equal
    split at equal
    · exact takeFlag_length_le equal
    · exact takeAssigned_length_le equal
    · exact takeLetters_length_le equal

/-! ## Commands -/

/-- The words of one part of a command line, sorted. -/
structure Sorted where
  flags : List (Flag × String)
  arguments : List String
  /-- Whether every word has a place. -/
  isComplete : Bool

/-- What becomes of the argument that a command may have. -/
abbrev ArgumentCheck := String → Except UsageEnd Unit

def withoutSeparator : List Word → List Word
  | { role := .separator, .. } :: rest => rest
  | words => words

theorem withoutSeparator_length_le (words : List Word) :
    (withoutSeparator words).length ≤ words.length := by
  unfold withoutSeparator
  split <;> simp

/-- Sort the words after a command, which may have an argument while `mayHave` holds. -/
def sortCommand (names : FlagNames) (check : ArgumentCheck) (mayHave : Bool) :
    List Word → Except UsageEnd Sorted
  | [] => .ok { flags := [], arguments := [], isComplete := true }
  | { role := .option flag attached, .. } :: rest =>
      match _result : takeOption names flag attached rest with
      | .error ending => .error ending
      | .ok taken => do
          let later ← sortCommand names check mayHave taken.rest
          return { later with
                   flags := taken.flags ++ later.flags
                   isComplete := taken.isComplete && later.isComplete }
  | { role := .unknownOption, .. } :: rest => do
      return { ← sortCommand names check mayHave rest with isComplete := false }
  | { role := .argument, text := text } :: rest => do
      if mayHave then
        check text
        let later ← sortCommand names check false (withoutSeparator rest)
        return { later with arguments := text :: later.arguments }
      else return { ← sortCommand names check false rest with isComplete := false }
  | { role := .separator, .. } :: rest => do
      let later ← sortCommand names check mayHave rest
      return { later with isComplete := later.isComplete && mayHave }
termination_by words => words.length
decreasing_by
  all_goals simp only [List.length_cons]
  · have := takeOption_length_le _result; omega
  · omega
  · have := withoutSeparator_length_le rest; omega
  · omega
  · omega

/-- The words of a command line from the command on, which is empty if there is none,
and the options before it. -/
structure General where
  flags : List (Flag × String)
  command : List String
  isComplete : Bool

/-- Sort the words up to the command. -/
def sortGeneral : List Word → Except UsageEnd General
  | [] => .ok { flags := [], command := [], isComplete := true }
  | { role := .option flag attached, .. } :: rest =>
      match _result : takeOption generalNames flag attached rest with
      | .error ending => .error ending
      | .ok taken => do
          let later ← sortGeneral taken.rest
          return { later with
                   flags := taken.flags ++ later.flags
                   isComplete := taken.isComplete && later.isComplete }
  | { role := .unknownOption, .. } :: rest => do
      return { ← sortGeneral rest with isComplete := false }
  | { role := .argument, text := text } :: rest =>
      .ok { flags := [], command := text :: rest.map (·.text), isComplete := true }
  | { role := .separator, .. } :: _ => .error .mistake
termination_by words => words.length
decreasing_by
  · have := takeOption_length_le _result; simp only [List.length_cons]; omega
  · simp

def noCheck : ArgumentCheck := fun _ => .ok ()

def readPlain (command : ConsoleCommand) (words : List String) :
    Except UsageEnd ConsoleCommand := do
  let words ← wordsOf commandNames words
  let sorted ← sortCommand commandNames noCheck false words
  if sorted.isComplete then return command else .error .mistake

def readStatus (words : List String) : Except UsageEnd ConsoleCommand := do
  let words ← wordsOf statusNames words
  let sorted ← sortCommand statusNames noCheck false words
  if sorted.isComplete then return .status (sorted.flags.any fun (flag, _) => flag = .json)
  else .error .mistake

def readSave (words : List String) : Except UsageEnd ConsoleCommand := do
  let words ← wordsOf commandNames words
  let sorted ← sortCommand commandNames noCheck true words
  if sorted.isComplete then return .save sorted.arguments.head? else .error .mistake

/-- Seconds between two looks, where nothing else is said. -/
def standardInterval : Double := .finite 2

def intervalOf (text : String) : Except UsageEnd Double :=
  match Double.read? text.toList with
  | some interval => .ok interval
  | none => .error .mistake

def readMonitor (words : List String) : Except UsageEnd ConsoleCommand := do
  let words ← wordsOf commandNames words
  let check (text : String) : Except UsageEnd Unit := do let _ ← intervalOf text
  let sorted ← sortCommand commandNames check true words
  let interval ←
    match sorted.arguments with
    | text :: _ => intervalOf text
    | [] => pure standardInterval
  if !sorted.isComplete || (Number.real interval).le 0 then .error .mistake
  else return .monitor interval

/-- Read a command, which is to show the status where there is none. -/
def readCommand : List String → Except UsageEnd ConsoleCommand
  | [] => .ok (.status false)
  | name :: words =>
      match name with
      | "start" => readPlain .start words
      | "stop" => readPlain .stop words
      | "restart" => readPlain .restart words
      | "reload" => readPlain .reload words
      | "status" => readStatus words
      | "monitor" => readMonitor words
      | "test" => readPlain .test words
      | "save" => readSave words
      | "help" => readPlain .help words
      | _ => .error .mistake

def read (words : List String) : Except UsageEnd Invocation := do
  let words ← wordsOf generalNames words
  let general ← sortGeneral words
  let command ← readCommand general.command
  let isGiven (flag : Flag) : Bool := general.flags.any fun (known, _) => known = flag
  if !general.isComplete then .error .mistake
  else
    return {
      isDebug := isGiven .debug
      isVerbose := isGiven .verbose
      isQuiet := isGiven .quiet
      settings := (general.flags.reverse.find? fun (known, _) => known = .settings).map (·.2)
      command := command }

end Arguments

end UplinkShaper
