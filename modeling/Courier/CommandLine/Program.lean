import Courier.CommandLine.Delivery
import Courier.CommandLine.Help
import Courier.Config.Listing
import Courier.Config.Reader

/-!
The program: a command line, a disk, and what comes of them. The configuration is loaded before the
command is looked at.
-/

namespace Courier
namespace CommandLine

structure Outcome where
  exitCode : Nat
  output : List String := []
  complaint : Option String := none
  disk : Disk

/-- The configuration in a file, or the default one; without it, what went wrong. -/
def loadConfig (d : Disk) : Option String → Except String Config
  | none => .ok {}
  | some path =>
      match Config.ofFile (d.contentsOf? path) with
      | .ok config => .ok config
      | .error _ => .error ("failed to load config from " ++ path)

def checkLines (config : Config) (path : Option String) : List String :=
  let title :=
    match path with
    | some path => "Configuration " ++ path ++ " is valid"
    | none => "No configuration file given, using defaults"
  [title, ""] ++ config.listing

def sendLines (o : SendOrder) (r : Delivered) : List String :=
  ["Transferred " ++ o.dataFile,
   "  pieces:        " ++ toString r.stats.pieces,
   "  bytes:         " ++ toString r.stats.pieceBytes,
   "  seals:         " ++ toString r.stats.seals,
   "  offset resets: " ++ toString r.stats.offsetResets,
   "  retries:       " ++ toString r.stats.retries,
   "  elapsed:       " ++ r.elapsed.text]

def failure (d : Disk) (message : String) : Outcome :=
  { exitCode := 1, complaint := some ("Error: " ++ message), disk := d }

/-- Metrics are to be reported again and again with no time between. The reporter of a delivery
breaks down on that, and an empty line stands in front of all that is complained of. -/
def breaksReporter (config : Config) : Bool :=
  config.metrics.enabled && config.metrics.interval == .zero

/-- What is said of a delivery that failed. -/
def deliveryFailure (config : Config) (d : Disk) (error : DeliveryError) : Outcome :=
  match error with
  | .timedOut _ _ =>
      if breaksReporter config then { exitCode := 1, complaint := some "", disk := d }
      else failure d error.message
  | _ => failure d error.message

def execute (config : Config) (i : Invocation) (d : Disk) : Outcome :=
  match i.command with
  | .check => { exitCode := 0, output := checkLines config i.config, disk := d }
  | .send order =>
      match order.run config d with
      | (d, .ok delivered) => { exitCode := 0, output := sendLines order delivered, disk := d }
      | (d, .error error) => deliveryFailure config d error

def halted (d : Disk) : Halt → Outcome
  | .help topic => { exitCode := 0, output := helpLines topic, disk := d }
  | .version => { exitCode := 0, output := [versionText], disk := d }
  | .misuse => { exitCode := 2, complaint := some "For more information, try '--help'.", disk := d }

def run (args : List String) (d : Disk) : Outcome :=
  match parse args with
  | .error h => halted d h
  | .ok i =>
      match loadConfig d i.config with
      | .error message => failure d message
      | .ok config => execute config i d

end CommandLine
end Courier
