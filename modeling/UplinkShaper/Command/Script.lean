import UplinkShaper.Command.Procedure
import UplinkShaper.Text.Lines

/-!
Scripts: replies that are fixed in advance. Each rule of a script answers commands that
contain a text, for as often as it says and after passing over as many as it says; the
first rule in order that applies gives the reply. A command that no rule applies to
succeeds and says nothing.
-/

namespace UplinkShaper

inductive ScriptReply
  | fixed (reply : Reply)
  /-- The command takes too long. -/
  | late
deriving DecidableEq, Repr

/-- Seconds that a command may take. -/
def commandSeconds : Nat := 10

def ScriptReply.replyTo (words : List String) : ScriptReply → Reply
  | .fixed reply => reply
  | .late =>
      let tool := Text.quoted (words.headD "")
      .interrupted (.timeout s!"Command {tool} timed out after {commandSeconds} seconds")

/-- A rule, with what happens while its command runs. -/
structure ScriptRule (δ : Type) where
  pattern : String
  /-- How many more commands the rule answers; without an end where it does not say. -/
  remaining : Option Int
  /-- How many commands the rule passes over before it answers one. -/
  skipped : Int
  meanwhile : δ
  answer : ScriptReply
deriving Repr

namespace ScriptRule

def appliesTo (rule : ScriptRule δ) (shown : List Char) : Bool :=
  Text.occursIn rule.pattern.toList shown && rule.remaining != some 0

end ScriptRule

abbrev Script (δ : Type) := List (ScriptRule δ)

namespace Script

def find (shown : List Char) : Script δ → Option (ScriptRule δ) × Script δ
  | [] => (none, [])
  | rule :: rest =>
      if !rule.appliesTo shown then
        let (found, rest) := find shown rest
        (found, rule :: rest)
      else if 0 < rule.skipped then
        let (found, rest) := find shown rest
        (found, { rule with skipped := rule.skipped - 1 } :: rest)
      else (some rule, { rule with remaining := rule.remaining.map (· - 1) } :: rest)

def next (script : Script δ) (words : List String) : Option (ScriptRule δ) × Script δ :=
  script.find (shownWords words).toList

end Script

end UplinkShaper
