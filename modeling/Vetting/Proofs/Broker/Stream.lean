import Vetting.Proofs.Broker.Fleet

/-!
What a stream tells of its broker. A consumer asks for one item after another, the broker answers as it
likes or not at all, connections fail, and at any moment the lease may be seen to be lost
(`Feed.Step`). Each event has its one item or none (`Event.item?`), and which call comes next follows from
the last reply (`Event.links`); both are said without the stream, which is shown to keep to them
(`Feed.Sound`). A stream whose lease is lost has at most one item ahead of it (`Feed.Step.wanes`).
-/
namespace Vetting.Broker

/-- What happens to a stream. -/
inductive Event
  /-- The consumer asks for the next item. -/
  | polled
  /-- The stream looks whether its lease is lost and begins a turn. -/
  | looked
  /-- A call is answered, or fails. -/
  | heard (c : Call) (reply : c.Reply)
  /-- The lease is seen to be lost. -/
  | flagged

namespace Event

/-- The item that is due for an event: a delivery for bytes, an error for a connection or a command that
failed, and nothing for a wait that was in vain. -/
def item? : Event → Option (Except QueueError Payload)
  | .heard .connect (.error failure) => some (.error (Queue.failed failure))
  | .heard (.send _) (.error failure) => some (.error (Queue.failed failure))
  | .heard (.send _) (.ok (.bytes payload)) => some (.ok payload)
  | .heard (.send _) (.ok (.status _)) | .heard (.send _) (.ok (.integer _)) =>
    some (.error (Queue.failed .unexpected))
  | _ => none

/-- Whether there is a connection after an event. -/
def links (linked : Bool) : Event → Bool
  | .heard .connect (.ok _) => true
  | .heard (.send _) (.ok (.bytes _)) | .heard (.send _) (.ok .nil) => true
  | .heard _ _ => false
  | _ => linked

/-- Whether there is a connection after events, of which the first finds none. -/
def linked (events : List Event) : Bool := events.foldl links false

def isFlagged : Event → Bool
  | .flagged => true
  | _ => false

@[simp] theorem linked_append (events : List Event) (e : Event) :
    linked (events ++ [e]) = links (linked events) e := by
  simp [linked]

end Event

/-- Where a stream is: nobody asks it for an item, it is to look at its lease, it waits for a reply, or it
is over. -/
inductive Stage
  | resting (stream : Queue.Stream)
  | looking (stream : Queue.Stream)
  | asking (rest : Client Queue.Turn)
  | ended

/-- A stream, whether its lease is lost, and the items that it gave. -/
structure Feed where
  stage : Stage
  lost : Bool
  items : List (Except QueueError Payload)

namespace Feed

/-- A stream from which nothing was asked yet. -/
def fresh : Feed := ⟨.resting .fresh, false, []⟩

/-- A turn goes on, or is over. A wait that was in vain is followed by another turn at once. -/
def go (f : Feed) : Client Queue.Turn → Feed
  | .call c next => { f with stage := .asking (.call c next) }
  | .done .ended => { f with stage := .ended }
  | .done (.again next) => { f with stage := .looking next }
  | .done (.item next outcome) =>
    { f with stage := .resting next, items := f.items ++ [outcome.mapError Queue.failed] }

/-- How a stream takes an event. Any reply may be heard to a call, and the lease may be lost at any time. -/
inductive Step (q : Queue) : Feed → Event → Feed → Prop
  | polled {f : Feed} {stream : Queue.Stream} (rests : f.stage = .resting stream) :
      Step q f .polled { f with stage := .looking stream }
  | looked {f : Feed} (stream : Queue.Stream) (looks : f.stage = .looking stream) :
      Step q f .looked (f.go (stream.turn q f.lost))
  | heard {f : Feed} {c : Call} {next : c.Reply → Client Queue.Turn}
      (asks : f.stage = .asking (.call c next)) (reply : c.Reply) :
      Step q f (.heard c reply) (f.go (next reply))
  | flagged {f : Feed} : Step q f .flagged { f with lost := true }

/-- A stream takes events one after another. -/
inductive Run (q : Queue) (start : Feed) : List Event → Feed → Prop
  | nothing : Run q start [] start
  | more {events : List Event} {f later : Feed} {e : Event} (run : Run q start events f)
      (step : Step q f e later) : Run q start (events ++ [e]) later

variable {q : Queue} {start f later : Feed} {events : List Event} {e : Event}

private theorem Run.trans {more : List Event} (first : Run q start events f) (second : Run q f more later) :
    Run q start (events ++ more) later := by
  induction second with
  | nothing => simpa using first
  | more _ step ih =>
    rw [← List.append_assoc]
    exact .more ih step

@[simp] theorem go_stage (f : Feed) (stage : Stage) (rest : Client Queue.Turn) :
    { f with stage }.go rest = f.go rest := by
  unfold go
  split <;> rfl

section Loop

variable {σ : Type} {perform : Program.Performer Call Call.Reply σ} {s after : σ}

/-- A stream takes the replies to the calls of a turn. -/
theorem exists_run_go {rest : Client Queue.Turn} {turn : Queue.Turn}
    (ran : rest.run perform s = some (turn, after)) :
    ∃ events, Run q (f.go rest) events (f.go (.done turn)) := by
  induction rest generalizing s with
  | done result =>
    cases ran
    exact ⟨[], .nothing⟩
  | call c next ih =>
    rw [Program.run] at ran
    cases answered : perform c s with
    | none => simp [answered] at ran
    | some answer =>
      rw [answered] at ran
      obtain ⟨events, run⟩ := ih answer.1 ran
      have heard : Step q (f.go (.call c next)) (.heard c answer.1) (f.go (next answer.1)) := by
        rw [← go_stage f (.asking (.call c next)) (next answer.1)]
        exact .heard rfl answer.1
      exact ⟨_, (Run.more .nothing heard).trans run⟩

/-- When a stream is run for its next item, each reply is an event. -/
theorem exists_run_next {stream : Queue.Stream} {turns : Nat} {outcome : Queue.Stream ⊕ Queue.Turn}
    (looks : f.stage = .looking stream)
    (ran : (stream.next q f.lost turns).run perform s = some (outcome, after)) :
    ∃ events, Run q f events (f.go (.done (outcome.elim .again id))) := by
  induction turns generalizing stream f s with
  | zero =>
    obtain ⟨stage, lost, items⟩ := f
    cases looks
    cases ran
    exact ⟨[], .nothing⟩
  | succ turns ih =>
    change (((stream.turn q f.lost).bind _).bind _).run perform s = _ at ran
    rw [Program.bind_assoc, Program.run_bind] at ran
    obtain ⟨⟨turn, mid⟩, turned, rest⟩ := Option.bind_eq_some_iff.1 ran
    obtain ⟨events, run⟩ := exists_run_go (f := f) (q := q) turned
    have first := (Run.more .nothing (.looked _ looks)).trans run
    cases turn with
    | again next =>
      obtain ⟨more, run⟩ := ih (f := f.go (.done (.again next))) rfl rest
      rw [go, go_stage] at run
      exact ⟨_, first.trans run⟩
    | ended =>
      cases rest
      exact ⟨_, first⟩
    | item next outcome =>
      cases rest
      exact ⟨_, first⟩

end Loop

/-- Where a stream is that has a connection, or has none. -/
def At (q : Queue) (linked : Bool) : Stage → Prop
  | .resting stream | .looking stream => stream.connected = linked
  | .asking rest => rest = if linked then q.receive else q.connecting
  | .ended => True

/-- A stream that has told of all events. -/
structure Sound (q : Queue) (events : List Event) (f : Feed) : Prop where
  items : f.items = events.filterMap Event.item?
  stage : At q (Event.linked events) f.stage
  lost : f.lost = events.any Event.isFlagged
  ends : f.stage = .ended → f.lost = true

@[simp] theorem go_lost (f : Feed) (rest : Client Queue.Turn) : (f.go rest).lost = f.lost := by
  unfold go
  split <;> rfl

private theorem At.call_eq {linked : Bool} {c : Call} {next : c.Reply → Client Queue.Turn}
    (asks : At q linked (.asking (.call c next))) :
    c = if linked then .send (Operation.receiving q) else .connect := by
  cases linked with
  | true => exact (Program.call.inj asks).1
  | false => exact (Program.call.inj asks).1

/-- What a reply comes to while a stream waits for it: the item that is due, or none, and then another look
at the lease or, over a connection that was made, a wait for a message. -/
theorem At.reply_cases {linked : Bool} {c : Call} {next : c.Reply → Client Queue.Turn} (reply : c.Reply)
    (asks : At q linked (.asking (.call c next))) :
    (∃ outcome : Except Failure Payload,
      (Event.heard c reply).item? = some (outcome.mapError Queue.failed) ∧
        next reply = .done (.item ⟨Event.links linked (.heard c reply)⟩ outcome)) ∨
    ((Event.heard c reply).item? = none ∧ Event.links linked (.heard c reply) = true ∧
      (next reply = .done (.again ⟨true⟩) ∨ c = .connect ∧ next reply = q.receive)) := by
  cases linked with
  | false =>
    obtain ⟨rfl, rest⟩ := Program.call.inj asks
    obtain rfl := eq_of_heq rest
    match reply with
    | .error failure => exact .inl ⟨.error failure, rfl, rfl⟩
    | .ok _ => exact .inr ⟨rfl, rfl, .inr ⟨rfl, rfl⟩⟩
  | true =>
    obtain ⟨rfl, rest⟩ := Program.call.inj asks
    obtain rfl := eq_of_heq rest
    match reply with
    | .error failure => exact .inl ⟨.error failure, rfl, rfl⟩
    | .ok (.bytes payload) => exact .inl ⟨.ok payload, rfl, rfl⟩
    | .ok .nil => exact .inr ⟨rfl, rfl, .inl rfl⟩
    | .ok (.status _) => exact .inl ⟨.error .unexpected, rfl, rfl⟩
    | .ok (.integer _) => exact .inl ⟨.error .unexpected, rfl, rfl⟩

/-- A stream that waits for a reply takes the item that is due and knows the connection that is left. -/
theorem go_heard {linked : Bool} {c : Call} {next : c.Reply → Client Queue.Turn} (reply : c.Reply)
    (asks : At q linked (.asking (.call c next))) :
    (f.go (next reply)).items = f.items ++ (Event.heard c reply).item?.toList ∧
      At q (Event.links linked (.heard c reply)) (f.go (next reply)).stage ∧
        (f.go (next reply)).stage ≠ .ended := by
  rcases asks.reply_cases reply with ⟨outcome, due, comes⟩ | ⟨nothing, linked, comes | ⟨_, comes⟩⟩
  · rw [comes, due]
    exact ⟨rfl, rfl, nofun⟩
  · rw [comes, nothing, linked]
    exact ⟨(List.append_nil _).symm, rfl, nofun⟩
  · rw [comes, nothing, linked]
    exact ⟨(List.append_nil _).symm, rfl, nofun⟩

@[simp] theorem turn_lost (stream : Queue.Stream) : stream.turn q true = .done .ended := rfl

@[simp] theorem turn_kept (stream : Queue.Stream) :
    stream.turn q false = if stream.connected then q.receive else q.connecting := rfl

private theorem Sound.fresh (q : Queue) : Sound q [] fresh := ⟨rfl, rfl, rfl, nofun⟩

/-- A stream tells of one more event, and of no other. -/
theorem Step.sound (step : Step q f e later) (sound : Sound q events f) :
    Sound q (events ++ [e]) later := by
  have items : ∀ {more : List (Except QueueError Payload)}, e.item?.toList = more →
      f.items ++ more = (events ++ [e]).filterMap Event.item? := by
    rintro _ rfl
    rw [List.filterMap_append, ← sound.items]
    cases due : e.item? <;> simp [due]
  have lost : e.isFlagged = false → f.lost = (events ++ [e]).any Event.isFlagged := by
    intro other
    rw [List.any_append, sound.lost]
    simp [other]
  have stage := sound.stage
  cases step with
  | polled rests =>
    rw [rests] at stage
    refine ⟨(List.append_nil _).symm.trans (items rfl), ?_, lost rfl, nofun⟩
    rw [Event.linked_append]
    exact stage
  | looked stream looks =>
    rw [looks] at stage
    cases flag : f.lost with
    | true =>
      rw [turn_lost]
      refine ⟨(List.append_nil _).symm.trans (items rfl), trivial, lost rfl, fun _ => flag⟩
    | false =>
      have asks : At q (Event.linked (events ++ [.looked])) (.asking (stream.turn q false)) := by
        rw [Event.linked_append, turn_kept]
        exact congrArg (fun linked : Bool => if linked then q.receive else q.connecting) stage
      have goes : f.go (stream.turn q false) = { f with stage := .asking (stream.turn q false) } := by
        rw [turn_kept]
        split <;> rfl
      rw [goes]
      exact ⟨(List.append_nil _).symm.trans (items rfl), asks, lost rfl, nofun⟩
  | heard asks reply =>
    rw [asks] at stage
    obtain ⟨told, linked, still⟩ := go_heard (f := f) reply stage
    refine ⟨told.trans (items rfl), ?_, (go_lost f _).trans (lost rfl), fun ended => absurd ended still⟩
    rw [Event.linked_append]
    exact linked
  | flagged =>
    refine ⟨(List.append_nil _).symm.trans (items rfl), ?_, ?_, fun _ => rfl⟩
    · rw [Event.linked_append]
      exact stage
    · simp [Event.isFlagged]

private theorem Run.sound (run : Run q fresh events f) : Sound q events f := by
  induction run with
  | nothing => exact .fresh q
  | more _ step ih => exact step.sound ih

/-- How many items a stream whose lease is lost can give yet. -/
def spare (f : Feed) : Nat :=
  match f.stage with
  | .asking _ => 1
  | _ => 0

/-- How many events can happen to a stream whose lease is lost until it is over. -/
def ahead (f : Feed) : Nat :=
  match f.stage with
  | .asking (.call .connect _) => 4
  | .asking _ => 3
  | .resting _ => 2
  | .looking _ => 1
  | .ended => 0

/-- A stream whose lease is lost comes nearer to its end with every event, and an item that it gives is the
last. -/
theorem Step.wanes {linked : Bool} (step : Step q f e later) (stage : At q linked f.stage)
    (lost : f.lost = true) :
    later.lost = true ∧ later.spare + e.item?.toList.length ≤ f.spare ∧
      later.ahead + (if e.isFlagged then 0 else 1) ≤ f.ahead := by
  cases step with
  | polled rests => exact ⟨lost, by simp [spare, rests, Event.item?], by simp [ahead, rests, Event.isFlagged]⟩
  | looked stream looks =>
    rw [lost, turn_lost]
    exact ⟨lost, by simp [spare, go, Event.item?], by simp [ahead, go, looks, Event.isFlagged]⟩
  | @heard c _ asks reply =>
    refine ⟨(go_lost f _).trans lost, ?_⟩
    have far : 3 ≤ f.ahead := by
      rw [ahead, asks]
      cases c <;> simp
    rw [asks] at stage
    rcases stage.reply_cases reply with ⟨outcome, due, comes⟩ | ⟨nothing, _, comes | ⟨rfl, comes⟩⟩
    · rw [comes, due]
      exact ⟨by simp [spare, go, asks], far⟩
    · rw [comes, nothing]
      exact ⟨by simp [spare, go], (show 2 ≤ 3 by decide).trans far⟩
    · rw [comes, nothing]
      exact ⟨by simp [spare, go, asks, Queue.receive],
        by simp [ahead, go, asks, Queue.receive, Event.isFlagged]⟩
  | flagged => exact ⟨rfl, by simp [spare, Event.item?], by simp [ahead, Event.isFlagged]⟩

private theorem Run.last (run : Run q start (events ++ [e]) f) :
    ∃ mid, Run q start events mid ∧ Step q mid e f := by
  generalize all : events ++ [e] = taken at run
  cases run with
  | nothing => simp at all
  | more run step =>
    obtain ⟨rfl, same⟩ := List.append_inj' all rfl
    cases same
    exact ⟨_, run, step⟩

/-- After it is seen that the lease is lost, there is one item at most, and four events at most. -/
theorem Run.wanes {before rest : List Event} (run : Run q fresh (before ++ .flagged :: rest) f) :
    (rest.filterMap Event.item?).length + f.spare ≤ 1 ∧ rest.countP (!·.isFlagged) + f.ahead ≤ 4 := by
  induction rest using List.reverseRecOn generalizing f with
  | nil =>
    have most : f.spare ≤ 1 ∧ f.ahead ≤ 4 := by
      unfold spare ahead
      constructor
      · split <;> omega
      · split <;> omega
    simpa using most
  | append_singleton rest e ih =>
    rw [← List.cons_append, ← List.append_assoc] at run
    obtain ⟨mid, run, step⟩ := run.last
    have sound := run.sound
    have lost : mid.lost = true := by
      rw [sound.lost]
      simp [Event.isFlagged]
    obtain ⟨_, items, events⟩ := step.wanes sound.stage lost
    obtain ⟨told, happened⟩ := ih run
    have last : ([e].filterMap Event.item?).length = e.item?.toList.length := by
      cases due : e.item? <;> simp [due]
    have other : [e].countP (!·.isFlagged) = if e.isFlagged then 0 else 1 := by
      cases flag : e.isFlagged <;> simp [flag]
    rw [List.filterMap_append, List.length_append, List.countP_append, last, other]
    omega

/-- The next call is for a connection just when there is none. -/
theorem Run.call_eq {before rest : List Event} {c : Call} {reply : c.Reply}
    (run : Run q fresh (before ++ .heard c reply :: rest) f) :
    c = if Event.linked before then .send (Operation.receiving q) else .connect := by
  induction rest using List.reverseRecOn generalizing f with
  | nil =>
    obtain ⟨mid, run, step⟩ := run.last
    have stage := run.sound.stage
    cases step with
    | heard asks =>
      rw [asks] at stage
      exact stage.call_eq
  | append_singleton rest e ih =>
    rw [← List.cons_append, ← List.append_assoc] at run
    obtain ⟨mid, run, _⟩ := run.last
    exact ih run

/-- Until it is over, a stream can be asked for an item, looks at its lease, or takes whatever reply it is
given. -/
theorem exists_step (still : f.stage ≠ .ended) (sound : Sound q events f) :
    (∃ later, Step q f .polled later) ∨ (∃ later, Step q f .looked later) ∨
      ∃ c, ∀ reply, ∃ later, Step q f (.heard c reply) later := by
  have stage := sound.stage
  cases at' : f.stage with
  | resting stream => exact .inl ⟨_, .polled at'⟩
  | looking stream => exact .inr (.inl ⟨_, .looked _ at'⟩)
  | asking rest =>
    rw [at'] at stage
    refine .inr (.inr ?_)
    cases linked : Event.linked events with
    | true =>
      rw [linked] at stage
      exact ⟨_, fun reply => ⟨_, .heard (at'.trans (congrArg Stage.asking stage)) reply⟩⟩
    | false =>
      rw [linked] at stage
      exact ⟨_, fun reply => ⟨_, .heard (at'.trans (congrArg Stage.asking stage)) reply⟩⟩
  | ended => exact absurd at' still

/-- Whatever the broker answers and whenever the lease is lost: the stream gives the items that are due, in
their order, and no others. It connects just when it has no connection, so before the next command after an
error. It is over only if the lease is lost. Once that is seen, there is one more item at most, and after
four more events it is over; and it never rests but to be asked or answered. -/
theorem Run.stream_reports (run : Run q fresh events f) :
    f.items = events.filterMap Event.item? ∧
    (∀ before c reply rest, events = before ++ .heard c reply :: rest →
      c = if Event.linked before then .send (Operation.receiving q) else .connect) ∧
    (f.stage = .ended → .flagged ∈ events) ∧
    (∀ before rest, events = before ++ .flagged :: rest →
      (rest.filterMap Event.item?).length ≤ 1 ∧ (rest.countP (!·.isFlagged) < 4 ∨ f.stage = .ended)) ∧
    (f.stage ≠ .ended → (∃ later, Step q f .polled later) ∨ (∃ later, Step q f .looked later) ∨
      ∃ c, ∀ reply, ∃ later, Step q f (.heard c reply) later) ∧
    (f.stage = .ended → ∀ e later, Step q f e later → e = .flagged) := by
  have sound := run.sound
  refine ⟨sound.items, ?_, fun closed => ?_, ?_, fun still => exists_step still sound,
    fun closed e later step => ?_⟩
  · rintro before c reply rest rfl
    exact run.call_eq
  · have lost := sound.ends closed
    rw [sound.lost, List.any_eq_true] at lost
    obtain ⟨e, mem, flag⟩ := lost
    cases e with
    | flagged => exact mem
    | polled | looked | heard => cases flag
  · rintro before rest rfl
    obtain ⟨told, happened⟩ := run.wanes
    refine ⟨by omega, ?_⟩
    by_cases more : rest.countP (!·.isFlagged) < 4
    · exact .inl more
    · have none' : f.ahead = 0 := by omega
      right
      unfold ahead at none'
      split at none'
      · cases none'
      · cases none'
      · cases none'
      · cases none'
      · next closed => exact closed
  · cases step with
    | polled rests => rw [closed] at rests; cases rests
    | looked stream looks => rw [closed] at looks; cases looks
    | heard asks => rw [closed] at asks; cases asks
    | flagged => rfl

/-- There is no connection at first, and when there is one, the lease is lost before a message comes. -/
def upset (q : Queue) (payload : Payload) : List Event :=
  [.polled, .looked, .heard .connect (.error .unreachable), .polled, .looked, .heard .connect (.ok ()),
    .flagged, .heard (.send (Operation.receiving q)) (.ok (.bytes payload)), .polled, .looked]

private theorem exists_upset (q : Queue) (payload : Payload) :
    ∃ f, Run q fresh (upset q payload) f ∧ f.stage = .ended := by
  let failed : Except QueueError Payload := .error (Queue.failed .unreachable)
  have asks : Run q fresh [.polled, .looked] ⟨.asking q.connecting, false, []⟩ :=
    (Run.nothing.more (.polled rfl)).more (.looked .fresh rfl)
  have fails := asks.more (.heard (c := .connect) rfl (.error .unreachable))
  have again : Run q fresh ((upset q payload).take 5) ⟨.asking q.connecting, false, [failed]⟩ :=
    (fails.more (.polled rfl)).more (.looked .fresh rfl)
  have waits : Run q fresh ((upset q payload).take 7) ⟨.asking q.receive, true, [failed]⟩ :=
    (again.more (.heard (c := .connect) rfl (.ok ()))).more .flagged
  have comes := waits.more (.heard (c := .send (Operation.receiving q)) rfl (.ok (.bytes payload)))
  exact ⟨_, (comes.more (.polled rfl)).more (.looked ⟨true⟩ rfl), rfl⟩

theorem stream_reports_upset : ∃ q payload f, Run q fresh (upset q payload) f ∧ f.stage = .ended ∧
    f.items = [.error (Queue.failed .unreachable), .ok payload] := by
  let q : Queue := ⟨"kyc", "w1", "one", .ofSeconds 30⟩
  obtain ⟨f, run, ended⟩ := exists_upset q [0x7b]
  exact ⟨q, [0x7b], f, run, ended, run.stream_reports.1⟩

end Feed

end Vetting.Broker
