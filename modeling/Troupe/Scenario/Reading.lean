import Troupe.Scenario.Play

/-!
# Reading scenarios

Plays from documents. What an act, a deed or a cue is called is the value of one field,
what it needs is in the others.

* `deedOf?_unknown` — what is no deed is not read as one.
-/

namespace Troupe.Scenario

open Form

/-- A message: a text, a text with its label, or the handle of an agent. -/
def sayingOf (d : Document) : Saying :=
  match d with
  | .text s => .words .isolated s
  | d =>
    match string? d "handle" with
    | some name => .handle name
    | none => .words (capability d "tag") (string d "text")

def saying (d : Document) (key : String) : Saying := sayingOf (inner d key)

def voteOf (d : Document) : Vote :=
  match string d "how" with
  | "affirm" => .affirm (nat0 d "value")
  | "drop" => .drop
  | _ => .reject

def traitsOf (d : Document) : Traits where
  mailbox := (present? d "mailbox").map marksOf?
  observed := flag d "observer"
  capability := (string? d "capability").bind capabilityNamed?
  profile := (present? d "profile").map profileOf
  profileOf := string? d "profile_of"

/-- A sizing given as such, or by a capacity alone. -/
def channelSizing (d : Document) : Sizing :=
  match present? d "config" with
  | some config => marksOf? config
  | none => Watermarks.ofCapacity? (nat0 d "capacity")

/-- The name that an agent is given; without one it takes the name of its template. -/
def nameOf (d : Document) : String :=
  let name := string d "as"
  if name = "" then string d "t" else name

/-- The deed of a name. -/
def deedOf? (d : Document) : Option Deed :=
  match string d "a" with
  | "spawn" => some (.spawn (string d "t") (nameOf d))
  | "signal" => some (.signal (string d "to") (saying d "msg") (flag d "anon") (agent? d "sender"))
  | "terminate" => some (.terminate (string d "who"))
  | "handle" => some (.handle (string d "who"))
  | "mailbox" => some (.mailbox (string d "who"))
  | "info" => some (.info (string d "who"))
  | "failure" => some (.failure (string d "who"))
  | "agents" => some .agents
  | "running" => some .running
  | "stats" => some .stats
  | "metrics" => some .metrics
  | "wake" => some (.wake (string d "w"))
  | "new_future" => some (.newFuture (string d "as"))
  | "resolve" => some (.resolve (string d "fut") (nat0 d "value"))
  | "wait_future" => some (.waitFuture (string d "fut") (span d "timeout"))
  | "start_quorum" =>
    some (.startQuorum (string d "as") (strings d "to") (nat0 d "threshold") (string d "payload"))
  | "wait_quorum" => some (.waitQuorum (string d "round") (span d "timeout"))
  | "quorum" =>
    some (.quorum (strings d "to") (nat0 d "threshold") (string d "payload") (span d "timeout"))
  | "broadcast" => some (.broadcast (strings d "to") (string d "payload") (nat0 d "fanout"))
  | "channel" => some (.channel (string d "as") (channelSizing d))
  | "send" => some (.send (string d "ch") (string d "v"))
  | "drop_tx" => some (.dropSender (string d "ch"))
  | "drop_rx" => some (.dropReceiver (string d "ch"))
  | "recv_timeout" => some (.receiveWithin (string d "ch") (span d "timeout"))
  | "lease" => some (.lease (string d "key") (span d "ttl"))
  | "renew" => some (.renew (string d "key") (span d "ttl"))
  | "release" => some (.release (string d "key"))
  | "advance" => some (.advance (span d "d"))
  | "shard" => some (.shard (string d "key") (strings d "shards"))
  | "sink" => some (.sink (string d "as") (flagD d "recv" true) (traitsOf d))
  | "end_sink" => some (.endSink (string d "who"))
  | "cell" => some (.cell (string d "as") ((items d "value").filterMap natOf?))
  | "cell_send" => some (.cellSend (string d "cell") (string d "to"))
  | _ => none

/-- The reason of a breakdown: a fixed text, none, or a text that is given. -/
def panicOf (d : Document) : Option String :=
  match string d "kind" with
  | "str" => some "static text"
  | "other" => none
  | _ => some (string d "msg")

/-- The act of a name. -/
def actOf? (d : Document) : Option Act :=
  match string d "a" with
  | "yield" => some .yield
  | "wait" => some .wait
  | "done" => some .done
  | "fail" => some (.fail (strings d "chain"))
  | "panic" => some (.panic (panicOf d))
  | "goto" => some (.goto (nat0 d "i"))
  | "log" => some (.log (passed ((d.get? "v").getD .null)))
  | "pending" => some .pending
  | "terminating" => some .terminating
  | "recv" => some (.receive (natD d "n" 1))
  | "recv_all" => some .receiveAll
  | "recv_until" => some (.receiveUntil (nat0 d "left"))
  | "await_msg" => some .awaitMessage
  | "save_waker" => some (.saveWaker (string d "as"))
  | "wake_past" => some .wakePast
  | "wake_after" => some (.wakeAfter (span d "d"))
  | "spin" => some (.spin (Span.ofMicros (nat0 d "us")))
  | "self_signal" => some (.selfSignal (saying d "msg"))
  | "poll_await" => some (.pollFuture (string d "fut") (span d "timeout"))
  | "poll_quorum" => some (.pollQuorum (string d "round") (span d "timeout"))
  | "poll_recv" => some (.pollChannel (string d "ch"))
  | "vote" => some (.vote (voteOf d))
  | _ => (deedOf? d).map .deed

def actsOf (d : Document) : List Act := (itemsOf d).filterMap actOf?

def templateOf (d : Document) : Template where
  resumes := (items d "resumes").map actsOf
  onStop := actsOf (inner d "on_stop")
  onRestart := actsOf (inner d "on_restart")
  traits := traitsOf d
  quiet := flag d "quiet"

def cueOf? (d : Document) : Option Cue :=
  match string d "a" with
  | "start" => some .start
  | "stop" => some .stop
  | "await_log" => some (.awaitLog (nat0 d "n"))
  | _ => (deedOf? d).map .deed

def beatOf? (d : Document) : Option Beat :=
  (cueOf? d).map fun cue => ⟨cue, flag d "nosettle", flag d "hold", flag d "sort"⟩

/-- The settings of a play: one worker unless said otherwise, and a single worker sleeps
for a minute. -/
def playSettings (d : Document) : Settings :=
  let s := settingsOf d
  let workers := natD d "workers" 1
  let park := if workers = 1 then 60000 else s.scheduler.parkMillis
  { s with scheduler := { s.scheduler with workers, parkMillis := natD d "park_timeout_ms" park } }

/-- Reads a play. -/
def playOf (d : Document) : Play where
  settings := playSettings (inner d "config")
  policy := policyOf (inner d "policy")
  templates := ⟨(inner d "agents").rows.map fun row => (row.1, templateOf row.2)⟩
  beats := (items d "steps").filterMap beatOf?

/-- Reads a play, plays it, and answers with its account. -/
def playDocument (d : Document) : Document :=
  match play (playOf d) with
  | .ok account => ofAccount account
  | .error mishap => ofMishap mishap

theorem deedOf?_unknown : deedOf? (.table [("a", .text "yield")]) = none := by
  decide +kernel

end Troupe.Scenario
