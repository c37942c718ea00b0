/- # Log output

A program run leaves a list of `Output`s: records of the log, which have a level and are written
only when the level reaches the threshold, and plain text, which is always written.  Debug and
information records go to the output channel, warnings and errors to the error channel, one line
each.  `Output.transcript` is the text that reaches one channel.
-/

namespace TaskPools

/-- The weight of a log record. -/
inductive Level where
  | debug
  | info
  | warning
  | error
  deriving DecidableEq, Repr

/-- Where text is written. -/
inductive Channel where
  | out
  | err
  deriving DecidableEq, Repr

namespace Level

/-- The number that is compared with the threshold. -/
def rank : Level → Int
  | debug => 0
  | info => 1
  | warning => 2
  | error => 3

/-- The name of a level in a log line. -/
def name : Level → String
  | debug => "DEBUG"
  | info => "INFO"
  | warning => "WARNING"
  | error => "ERROR"

/-- The channel of the records of a level. -/
def channel : Level → Channel
  | debug | info => .out
  | warning | error => .err

/-- The level that a word names, in any case; an unknown word, like no word, names
information. -/
def ofWord? (word : Option String) : Level :=
  match word.map String.toLower with
  | some "debug" => debug
  | some "warning" | some "warn" => warning
  | some "error" => error
  | _ => info

end Level

/-- One piece of what a run writes. -/
inductive Output where
  /-- A log record. -/
  | record (level : Level) (message : String)
  /-- Text written as it stands. -/
  | text (channel : Channel) (text : String)
  deriving DecidableEq, Repr

namespace Output

/-- The channel on which a piece is written. -/
def channel : Output → Channel
  | record level _ => level.channel
  | text c _ => c

/-- A record is written when its level reaches the threshold, which may be any number. -/
def isWritten (threshold : Int) : Output → Bool
  | record level _ => threshold ≤ level.rank
  | text _ _ => true

/-- The text of a piece; a record is one line that opens with a time stamp. -/
def render (stamp : String) : Output → String
  | record level message => "[" ++ stamp ++ "] [" ++ level.name ++ "] " ++ message ++ "\n"
  | text _ t => t

/-- The text that a run writes on one channel. -/
def transcript (threshold : Int) (stamp : String) (c : Channel) (outputs : List Output) : String :=
  outputs.foldl
    (fun written o =>
      if o.isWritten threshold && o.channel == c then written ++ o.render stamp else written) ""

end Output

/-- What each journal of a list gained from one time to a later one.  A journal only grows at its
end, and new journals come behind the others. -/
def journalGains {α : Type} (before after : List (List α)) : List (List α) :=
  after.zipIdx.map fun (journal, i) => journal.drop (before[i]?.getD []).length

end TaskPools
