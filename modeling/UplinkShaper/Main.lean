import UplinkShaper.Console.Relay

/-!
The command line. The first line of the standard input describes the machine, and each
further one is the reply to a command; each line of the standard output asks for a
command, and the last one tells how the program ends.
-/

namespace UplinkShaper

/-- The document on the next line, null where there is none. -/
def nextDocument (input : IO.FS.Stream) : IO Value := do
  return (Json.read? (← input.getLine)).getD .null

def say (output : IO.FS.Stream) (document : Value) : IO Unit := do
  output.putStrLn (Json.compact document)
  output.flush

/-- Have the commands of a procedure run by the partner, up to the end. -/
def converse (input output : IO.FS.Stream) :
    Procedure Host Console.Ending → IO UInt32
  | .done host result => do
      say output (Relay.endDocument host result)
      return (Relay.exitCode result).toUInt32
  | .command host words resume => do
      say output (Relay.commandDocument host words)
      let reply ← nextDocument input
      converse input output (resume (Relay.hostAfter host reply) (Relay.replyOf reply))

/-- How many times a monitor polls, unless it is interrupted. -/
def monitorPolls : Nat := Nat.pow 2 64

/-- The program for the words of a command line. -/
def serve (words : List String) : IO UInt32 := do
  let input ← IO.getStdin
  let host := Relay.hostOf (← nextDocument input)
  converse input (← IO.getStdout) (Console.run monitorPolls words host)

end UplinkShaper

def main (words : List String) : IO UInt32 :=
  UplinkShaper.serve words
