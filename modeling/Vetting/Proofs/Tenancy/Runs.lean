import Vetting.Proofs.Fingerprint
import Vetting.Proofs.Tenancy.Requests
import Vetting.Worker

/-!
Runs of the whole system (`World.history?`): uploads, requests, drains and what else can happen to it one
after another. What of a run belongs to one client (`shareOf`) keeps apart from the rest
(`Moment.Fits`), if no two submissions draw one id, no two clients upload under one reference, and no two
texts that are hashed have one digest.
-/
namespace Vetting

theorem ok_of_toOption {ε α : Type} {x : Except ε α} {a : α} (told : x.toOption = some a) : x = .ok a := by
  cases x with
  | error e => cases told
  | ok b =>
    cases told
    rfl

namespace Memory

open Http

/-- What can happen to the system. -/
inductive Happening
  | upload (reference : String) (kind : ImageKind) (client : Int)
  | request (context : Context) (request : Http.Request)
  | turn (switch : Switch) (on : Bool)
  | clearCache
  | drain
  /-- It is another time. -/
  | pass (now : Instant)

namespace Happening

/-- The client that a request comes from. -/
def sender? : Happening → Option Int
  | .request context r => (authenticate context r).toOption
  | _ => none

/-- Whether something is a client's doing, or happens to all clients in the same way. What is asked of the
monitor's endpoint, which takes no token and tells of all clients, is no client's. -/
def concerns (client : Int) : Happening → Bool
  | .upload _ _ owner => owner = client
  | .request context r => (request context r).sender? = some client ∧ Endpoint.ofPath? r.path ≠ some .metrics
  | .turn .. | .clearCache | .drain => true
  | .pass _ => false

/-- The submission that a request makes. -/
def submission? : Happening → Option Vetting.Request
  | .request context r => Http.submission? context r
  | _ => none

/-- The id that a submission draws. -/
def drawn? (h : Happening) : Option JobId := h.submission?.map Request.drawn

/-- The reference of an upload, and whose image it is. -/
def uploaded? : Happening → Option (String × Int)
  | .upload reference _ client => some (reference, client)
  | _ => none

end Happening

/-- What comes of a happening: the answer to a request, and the world then. -/
def World.happen : Happening → World → Option (Option Response × World)
  | .upload reference kind client, w => some (none, (w.addImage reference kind client).2)
  | .request context r, w => (w.run (Http.handle context r)).map fun (response, after) => (some response, after)
  | .turn switch on, w => some (none, w.turn switch on)
  | .clearCache, w => some (none, w.clearCache)
  | .drain, w => (w.run Worker.work).map fun (_, after) => (none, after)
  | .pass now, w => some (none, { w with now })

/-- A happening, the world in which it happened, and the answer to a request. -/
structure Moment where
  before : World
  happening : Happening
  answer : Option Response

/-- The moments of a run, if nothing hangs. -/
def World.history? : List Happening → World → Option (List Moment)
  | [], _ => some []
  | h :: rest, w =>
    match w.happen h with
    | none => none
    | some (answer, after) => (after.history? rest).map (⟨w, h, answer⟩ :: ·)

/-- The answers to a client, in order. -/
def answersTo (client : Int) (history : List Moment) : List Response :=
  history.filterMap fun moment => if moment.happening.concerns client then moment.answer else none

/-- The submission whose text is hashed at a moment: one that is not refused. -/
def Moment.hashed? (m : Moment) : Option Vetting.Request :=
  m.happening.submission?.filter fun s => (m.before.checked s).isOk

/-- The submissions whose texts are hashed in a run. -/
def hashedIn (history : List Moment) : List Vetting.Request := history.filterMap Moment.hashed?

/-- Whether no two texts that are hashed in a run have one digest. -/
def CollisionFree (history : List Moment) : Prop :=
  ∀ s ∈ hashedIn history, ∀ t ∈ hashedIn history,
    Sha256.digest (Utf8.encode s.source) = Sha256.digest (Utf8.encode t.source) → s.source = t.source

/-- Whether each submission draws an id of its own, and no two clients upload under one reference. -/
structure Orderly (happenings : List Happening) : Prop where
  drawn : (happenings.filterMap Happening.drawn?).Nodup
  uploaded : (happenings.filterMap Happening.uploaded?).Pairwise fun upload other =>
    upload.1 = other.1 → upload.2 = other.2

/-- What of a run belongs to a client. -/
def shareOf (client : Int) (happenings : List Happening) : Share where
  client
  ids := (happenings.filter (·.concerns client)).filterMap Happening.drawn?
  references := (happenings.filter (·.concerns client)).filterMap fun h => h.uploaded?.map Prod.fst

/-- The fingerprints of a client's work in a run, as texts. -/
def textsOf (client : Int) (history : List Moment) : List String :=
  ((hashedIn history).filter fun s => s.client = client).map fun s => s.fingerprint.text

/-- Whether what happens at a moment is the client's in all that it brings, or in nothing. -/
structure Moment.Fits (share : Share) (texts : List String) (m : Moment) : Prop where
  uploaded : ∀ reference kind client, m.happening = .upload reference kind client →
    (client = share.client ↔ reference ∈ share.references)
  owned : ∀ s, m.happening.submission? = some s → ∀ images, m.before.checked s = .ok images →
    Owned share texts (s.client = share.client) s

variable {client : Int} {happenings : List Happening} {h : Happening} {s t : Vetting.Request}
  {history : List Moment} {m : Moment} {w : World}

theorem Happening.concerns_request {context : Context} {r : Http.Request} :
    (request context r).concerns client = true ↔
      authenticate context r = .ok client ∧ Endpoint.ofPath? r.path ≠ some .metrics := by
  rw [concerns, decide_eq_true_iff, sender?]
  refine and_congr_left fun _ => ⟨ok_of_toOption, fun entered => ?_⟩
  rw [entered]
  rfl

theorem Happening.concerns_of_submission (made : h.submission? = some s) :
    h.concerns client = true ↔ s.client = client := by
  cases h with
  | request context r =>
    obtain ⟨_, _, entered, endpoint, there, named⟩ := submission?_cases made
    have unmonitored : Endpoint.ofPath? r.path ≠ some .metrics := by
      rw [there]
      rintro ⟨⟩
      cases named
    rw [concerns_request, entered, Except.ok.injEq, and_iff_left unmonitored]
  | _ => cases made

private theorem Orderly.mem_ids (orderly : Orderly happenings) (mem : h ∈ happenings)
    (made : h.submission? = some s) : s.drawn ∈ (shareOf client happenings).ids ↔ s.client = client := by
  rw [← Happening.concerns_of_submission made]
  have drawn : h.drawn? = some s.drawn := by rw [Happening.drawn?, made, Option.map_some]
  constructor
  · intro mine
    obtain ⟨other, chosen, draws⟩ := List.mem_filterMap.1 mine
    obtain ⟨there, concerned⟩ := List.mem_filter.1 chosen
    have symm : Std.Symm fun h g : Happening => ∀ id, h.drawn? = some id → ∀ other, g.drawn? = some other →
      id ≠ other := ⟨fun h g apart id here other there same => apart other there id here same.symm⟩
    -- Two submissions that draw one id are one happening.
    have apart := (List.pairwise_filterMap.1 orderly.drawn).forall mem there
    by_contra foreign
    refine apart ?_ _ drawn _ draws rfl
    rintro rfl
    exact foreign concerned
  · intro concerned
    exact List.mem_filterMap.2 ⟨h, List.mem_filter.2 ⟨mem, concerned⟩, drawn⟩

private theorem Orderly.mem_references (orderly : Orderly happenings) {reference : String} {kind : ImageKind}
    {owner : Int} (mem : .upload reference kind owner ∈ happenings) :
    reference ∈ (shareOf client happenings).references ↔ owner = client := by
  constructor
  · intro mine
    obtain ⟨other, chosen, named⟩ := List.mem_filterMap.1 mine
    obtain ⟨there, concerned⟩ := List.mem_filter.1 chosen
    cases other with
    | upload also kind' holder =>
      cases named
      have symm : Std.Symm fun upload other : String × Int => upload.1 = other.1 → upload.2 = other.2 :=
        ⟨fun _ _ apart same => (apart same.symm).symm⟩
      have apart := List.Pairwise.forall_of_forall (fun _ _ _ => rfl) orderly.uploaded
      have same : owner = holder := apart (List.mem_filterMap.2 ⟨_, mem, rfl⟩)
        (List.mem_filterMap.2 ⟨_, there, rfl⟩) rfl
      exact same.trans (of_decide_eq_true concerned)
    | _ => cases named
  · rintro rfl
    exact List.mem_filterMap.2 ⟨_, List.mem_filter.2 ⟨mem, decide_eq_true rfl⟩, rfl⟩

private theorem exists_of_mem_hashedIn (mem : s ∈ hashedIn history) :
    ∃ m ∈ history, m.happening.submission? = some s ∧ ∃ images, m.before.checked s = .ok images := by
  obtain ⟨m, there, hashed⟩ := List.mem_filterMap.1 mem
  obtain ⟨made, passed⟩ := Option.filter_eq_some_iff.1 hashed
  refine ⟨m, there, made, ?_⟩
  cases checked : m.before.checked s with
  | ok images => exact ⟨images, rfl⟩
  | error e => simp [checked, Except.isOk, Except.toBool] at passed

private theorem mem_hashedIn (mem : m ∈ history) (made : m.happening.submission? = some s)
    {images : List Image} (passed : m.before.checked s = .ok images) : s ∈ hashedIn history :=
  List.mem_filterMap.2 ⟨m, mem, Option.filter_eq_some_iff.2 ⟨made, by rw [passed]; rfl⟩⟩

/-- Work of different clients has different fingerprints. -/
theorem CollisionFree.mem_texts (free : CollisionFree history) (mem : s ∈ hashedIn history) :
    s.fingerprint.text ∈ textsOf client history ↔ s.client = client := by
  constructor
  · intro mine
    obtain ⟨t, chosen, same⟩ := List.mem_map.1 mine
    obtain ⟨hashed, owner⟩ := List.mem_filter.1 chosen
    obtain ⟨_, _, _, _, passed⟩ := exists_of_mem_hashedIn mem
    obtain ⟨_, _, _, _, passes⟩ := exists_of_mem_hashedIn hashed
    have digests : Sha256.digest (Utf8.encode t.source) = Sha256.digest (Utf8.encode s.source) :=
      Fingerprint.digest_eq_of_text_eq same
    -- Equal digests come from equal texts, and a text begins with the type and the client.
    have clients := (Fingerprint.source_inj_head (World.fits_of_checked passes) (World.fits_of_checked passed)
      (free t hashed s mem digests)).2
    exact clients.symm.trans (of_decide_eq_true owner)
  · intro mine
    exact List.mem_map.2 ⟨s, List.mem_filter.2 ⟨mem, decide_eq_true mine⟩, rfl⟩

theorem answersTo_cons_other {client : Int} (other : m.happening.concerns client = false) :
    answersTo client (m :: history) = answersTo client history :=
  List.filterMap_cons_none (if_neg (Bool.eq_false_iff.1 other))

theorem answersTo_cons_silent {client : Int} (silent : m.answer = none) :
    answersTo client (m :: history) = answersTo client history :=
  List.filterMap_cons_none (by rw [silent, ite_self])

theorem answersTo_cons {client : Int} (concerned : m.happening.concerns client = true) {response : Response}
    (answered : m.answer = some response) :
    answersTo client (m :: history) = response :: answersTo client history :=
  List.filterMap_cons_some ((if_pos concerned).trans answered)

theorem history?_cons {rest : List Happening} (ran : w.history? (h :: rest) = some history) :
    ∃ answer after later, w.happen h = some (answer, after) ∧ after.history? rest = some later ∧
      history = ⟨w, h, answer⟩ :: later := by
  unfold World.history? at ran
  split at ran
  · cases ran
  · next answer after happened =>
    obtain ⟨later, goes, rfl⟩ := Option.map_eq_some_iff.1 ran
    exact ⟨answer, after, later, happened, goes, rfl⟩

theorem history?_of_happen {rest : List Happening} {answer : Option Response} {after : World}
    (happened : w.happen h = some (answer, after)) (continues : after.history? rest = some history) :
    w.history? (h :: rest) = some (⟨w, h, answer⟩ :: history) := by
  rw [World.history?, happened]
  exact congrArg (Option.map _) continues

private theorem mem_of_history? (ran : w.history? happenings = some history) (mem : m ∈ history) :
    m.happening ∈ happenings := by
  induction happenings generalizing w history with
  | nil =>
    cases ran
    cases mem
  | cons h rest ih =>
    obtain ⟨answer, after, later, _, continues, rfl⟩ := history?_cons ran
    rcases List.mem_cons.1 mem with rfl | mem
    · exact List.mem_cons_self
    · exact List.mem_cons_of_mem _ (ih continues mem)

/-- Whether two texts collide can be told from all submissions, refused or not. -/
theorem collisionFree_of_submissions (ran : w.history? happenings = some history)
    (free : ∀ s ∈ happenings.filterMap Happening.submission?,
      ∀ t ∈ happenings.filterMap Happening.submission?,
        Sha256.digest (Utf8.encode s.source) = Sha256.digest (Utf8.encode t.source) → s.source = t.source) :
    CollisionFree history := by
  have submitted : ∀ s ∈ hashedIn history, s ∈ happenings.filterMap Happening.submission? := by
    intro s mem
    obtain ⟨m, there, made, _⟩ := exists_of_mem_hashedIn mem
    exact List.mem_filterMap.2 ⟨m.happening, mem_of_history? ran there, made⟩
  exact fun s mem t there => free s (submitted s mem) t (submitted t there)

theorem drawn_of_submissions {happenings : List Happening} {submissions : List Vetting.Request}
    (made : happenings.filterMap Happening.submission? = submissions) :
    happenings.filterMap Happening.drawn? = submissions.map Request.drawn := by
  rw [← made, List.map_filterMap]
  rfl

theorem Orderly.fits (orderly : Orderly happenings) (ran : w.history? happenings = some history)
    (free : CollisionFree history) (mem : m ∈ history) :
    m.Fits (shareOf client happenings) (textsOf client history) where
  uploaded reference kind owner upload := by
    have there := mem_of_history? ran mem
    rw [upload] at there
    exact (orderly.mem_references there).symm
  owned s made images passed :=
    ⟨.rfl, orderly.mem_ids (mem_of_history? ran mem) made, free.mem_texts (mem_hashedIn mem made passed)⟩

end Memory

end Vetting
