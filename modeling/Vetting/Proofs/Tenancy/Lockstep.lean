import Vetting.Proofs.Tenancy.Share

/-!
Two worlds in which a client sees the same (`Alike`). A call that names only what is the client's gets
the same reply in both and leaves them alike (`Alike.perform`), so two programs that make such calls one
for one end with results that the client cannot tell apart (`Parallel`).
-/
namespace Vetting.Memory

/-- Two worlds that each keep a client apart, and in which it sees the same. -/
structure Alike (share : Share) (texts others : List String) (w v : World) : Prop where
  left : Sane share texts w
  right : Sane share others v
  view : w.view share = v.view share

/-- Whether the reply to a call does not tell of the images or the times of a world. -/
def Timeless : Call → Prop
  | .findImage _ | .find .. | .create _ | .metrics => False
  | _ => True

namespace JobTable

variable {t u : JobTable} {id : JobId} {sources : List JobStatus} {f g : Job → Job}

private theorem outline?_cases (same : t.outline? id = u.outline? id) :
    (t.job? id = none ∧ u.job? id = none) ∨
      ∃ job other, t.job? id = some job ∧ u.job? id = some other ∧ job.outline = other.outline := by
  unfold outline? at same
  cases found : t.job? id with
  | none =>
    rw [found] at same
    exact .inl ⟨rfl, Option.map_eq_none_iff.1 same.symm⟩
  | some job =>
    rw [found] at same
    obtain ⟨other, there, equal⟩ := Option.map_eq_some_iff.1 same.symm
    exact .inr ⟨job, other, rfl, there, equal.symm⟩

theorem status_eq {job other : Job} (same : job.outline = other.outline) : job.status = other.status :=
  congrArg Outline.status same

private theorem failed_outline {job other : Job} (same : job.outline = other.outline) (now later : Instant)
    (reason : String) : (failed now reason job).outline = (failed later reason other).outline := by
  simp only [Job.outline, failed, Outline.mk.injEq] at same ⊢
  simp only [same, Option.isSome_some, and_self]

private theorem change_reply (same : t.outline? id = u.outline? id) :
    (t.change id sources f).1 = (u.change id sources g).1 := by
  rcases outline?_cases same with ⟨absent, missing⟩ | ⟨job, other, found, there, equal⟩
  · simp only [change, absent, missing]
  · have status := status_eq equal
    simp only [change, found, there, status]
    split <;> rfl

private theorem outline?_change (same : t.outline? id = u.outline? id)
    (steps : ∀ job other : Job, job.outline = other.outline → (f job).outline = (g other).outline)
    {changed : JobId} (equal : t.outline? changed = u.outline? changed) :
    (t.change id sources f).2.outline? changed = (u.change id sources g).2.outline? changed := by
  simp only [outline?, job?_change]
  split
  · rcases outline?_cases same with ⟨absent, missing⟩ | ⟨job, other, found, there, alike⟩
    · simp only [absent, missing]
      rfl
    · simp only [found, there, Option.map_some, status_eq alike]
      split
      · rw [steps job other alike]
      · rw [alike]
  · exact equal

end JobTable

namespace Alike

variable {share : Share} {texts others : List String} {w v : World}

private theorem symm (alike : Alike share texts others w v) : Alike share others texts v w :=
  ⟨alike.right, alike.left, alike.view.symm⟩

theorem faults_eq (alike : Alike share texts others w v) : w.faults = v.faults :=
  congrArg View.faults alike.view

theorem fault_eq (alike : Alike share texts others w v) (switch : Switch) :
    w.faults switch = v.faults switch := congrFun alike.faults_eq switch

theorem executors_eq (alike : Alike share texts others w v) : w.executors = v.executors :=
  congrArg View.executors alike.view

theorem kinds_eq (alike : Alike share texts others w v) :
    (w.view share).kinds = (v.view share).kinds := congrArg View.kinds alike.view

theorem outlines_eq (alike : Alike share texts others w v) :
    (w.view share).outlines = (v.view share).outlines := congrArg View.outlines alike.view

theorem fingerprints_eq (alike : Alike share texts others w v) :
    (w.view share).fingerprints = (v.view share).fingerprints := congrArg View.fingerprints alike.view

theorem cached_eq (alike : Alike share texts others w v) :
    (w.view share).cached = (v.view share).cached := congrArg View.cached alike.view

theorem pending_eq (alike : Alike share texts others w v) :
    (w.view share).pending = (v.view share).pending := congrArg View.pending alike.view

private theorem outline?_eq (alike : Alike share texts others w v) {id : JobId} (mine : id ∈ share.ids) :
    w.store.outline? id = v.store.outline? id := by
  have same := congrFun alike.outlines_eq id
  simpa only [World.view, mine, if_true] using same

/-- The cache has the same of the client's work. -/
theorem lookup_eq (alike : Alike share texts others w v) {fingerprint : Fingerprint}
    (own : fingerprint.text ∈ texts) (also : fingerprint.text ∈ others) :
    w.cache.lookup fingerprint = v.cache.lookup fingerprint := by
  have whole : ∀ {texts w}, Sane share texts w → fingerprint.text ∈ texts →
      (w.cache.lookup fingerprint).filter (fun id => decide (id ∈ share.ids)) =
        w.cache.lookup fingerprint := by
    intro texts w sane own
    cases known : w.cache.lookup fingerprint with
    | none => rfl
    | some id =>
      exact Option.filter_some_pos (decide_eq_true ((sane.cached fingerprint id known).1 own))
  rw [← whole alike.left own, ← whole alike.right also]
  exact congrFun alike.cached_eq fingerprint

/-- The fingerprint of the client's work is taken by the same job. -/
theorem taken_eq (alike : Alike share texts others w v) {text : String} (own : text ∈ texts)
    (also : text ∈ others) :
    w.store.fingerprints.lookup text = v.store.fingerprints.lookup text := by
  -- No entry under the text is foreign, so the view has the one that a look-up finds.
  have whole : ∀ {pairs : List (String × JobId)}, (∀ id, (text, id) ∈ pairs → id ∈ share.ids) →
      (pairs.filter fun entry => decide (entry.2 ∈ share.ids)).lookup text = pairs.lookup text := by
    intro pairs mine
    induction pairs with
    | nil => rfl
    | cons pair rest ih =>
      obtain ⟨key, id⟩ := pair
      have tail := ih fun other mem => mine other (List.mem_cons_of_mem _ mem)
      by_cases kept : id ∈ share.ids
      · rw [List.filter_cons_of_pos (by simpa using kept), Assoc.lookup_cons, Assoc.lookup_cons, tail]
      · have different : text ≠ key := by
          rintro rfl
          exact kept (mine id List.mem_cons_self)
        rw [List.filter_cons_of_neg (by simpa using kept), tail, Assoc.lookup_cons, if_neg different]
  rw [← whole fun id mem => (alike.left.taken text id mem).1 own,
    ← whole fun id mem => (alike.right.taken text id mem).1 also]
  exact congrArg (List.lookup text) alike.fingerprints_eq

/-- What the client sees when nothing but the stores becomes other. -/
private theorem view_store (alike : Alike share texts others w v) {t u : JobTable}
    (outlines : ∀ id ∈ share.ids, t.outline? id = u.outline? id)
    (fingerprints : t.fingerprints.filter (fun entry => decide (entry.2 ∈ share.ids)) =
      u.fingerprints.filter fun entry => decide (entry.2 ∈ share.ids)) :
    ({ w with store := t } : World).view share = ({ v with store := u } : World).view share := by
  ext1
  · exact alike.faults_eq
  · exact alike.executors_eq
  · exact alike.kinds_eq
  · funext id
    simp only [World.view]
    split
    · next mine => exact outlines id mine
    · rfl
  · exact fingerprints
  · exact alike.cached_eq
  · exact alike.pending_eq

/-- Both worlds change a job of the client. -/
theorem view_change (alike : Alike share texts others w v) {id : JobId} (mine : id ∈ share.ids)
    {sources : List JobStatus} {f g : Job → Job}
    (steps : ∀ job other : Job, job.outline = other.outline → (f job).outline = (g other).outline) :
    ({ w with store := (w.store.change id sources f).2 } : World).view share =
      ({ v with store := (v.store.change id sources g).2 } : World).view share := by
  refine alike.view_store (fun changed also => ?_) ?_
  · exact JobTable.outline?_change (alike.outline?_eq mine) steps (alike.outline?_eq also)
  · simp only [JobTable.fingerprints_change]
    exact alike.fingerprints_eq

private theorem exists_stored (alike : Alike share texts others w v) {id : JobId} (mine : id ∈ share.ids)
    {sources : List JobStatus} {f g : Job → Job}
    (steps : ∀ job other : Job, job.outline = other.outline → (f job).outline = (g other).outline) :
    ∃ reply after later, some (w.stored (w.store.change id sources f)) = some (reply, after) ∧
      some (v.stored (v.store.change id sources g)) = some (reply, later) ∧
        after.view share = later.view share := by
  refine ⟨_, _, _, rfl, ?_, alike.view_change mine steps⟩
  rw [World.stored, JobTable.change_reply (alike.outline?_eq mine)]

/-- Both worlds abandon a job of the client. -/
theorem view_abandon (alike : Alike share texts others w v) {id : JobId} (mine : id ∈ share.ids)
    (reason : String) :
    ({ w with store := w.store.abandon w.now id reason } : World).view share =
      ({ v with store := v.store.abandon v.now id reason } : World).view share := by
  have same := alike.outline?_eq mine
  have fails : ∀ job other : Job, job.outline = other.outline →
      (JobTable.failed w.now reason job).outline = (JobTable.failed v.now reason other).outline :=
    fun _ _ equal => JobTable.failed_outline equal w.now v.now reason
  have unstarted : w.store.Unstarted id ↔ v.store.Unstarted id := by
    unfold JobTable.Unstarted
    rcases JobTable.outline?_cases same with ⟨absent, missing⟩ | ⟨job, other, found, there, equal⟩
    · simp [absent, missing]
    · simp [found, there, JobTable.status_eq equal]
  refine alike.view_store (fun changed also => ?_) ?_
  · simp only [JobTable.outline?, JobTable.job?_abandon]
    exact JobTable.outline?_change same fails (alike.outline?_eq also)
  · have kept := alike.fingerprints_eq
    simp only [World.view] at kept
    rcases JobTable.abandon_cases w.now id reason w.store with ⟨started, left⟩ | ⟨fresh, left⟩
    · rcases JobTable.abandon_cases v.now id reason v.store with ⟨_, right⟩ | ⟨fresh, _⟩
      · rw [left, right, kept]
      · exact absurd (unstarted.2 fresh) started
    · rcases JobTable.abandon_cases v.now id reason v.store with ⟨started, _⟩ | ⟨_, right⟩
      · exact absurd (unstarted.1 fresh) started
      · rw [left, right]
        dsimp only
        rw [List.filter_comm, kept, List.filter_comm]

/-- Both caches are told of a job. -/
private theorem view_noted (alike : Alike share texts others w v) (fingerprint : Fingerprint) (id : JobId) :
    (w.noted fingerprint id).view share = (v.noted fingerprint id).view share := by
  rw [World.noted, World.noted, alike.fault_eq]
  split
  · exact alike.view
  ext1
  · exact alike.faults_eq
  · exact alike.executors_eq
  · exact alike.kinds_eq
  · exact alike.outlines_eq
  · exact alike.fingerprints_eq
  · funext other
    simp only [World.view, Assoc.lookup_put]
    split
    · rfl
    · exact congrFun alike.cached_eq other
  · exact alike.pending_eq

/-- Both queues are given a payload. -/
private theorem view_queued (alike : Alike share texts others w v) (payload : List UInt8) :
    ({ w with pending := w.pending ++ [payload] } : World).view share =
      ({ v with pending := v.pending ++ [payload] } : World).view share := by
  ext1
  · exact alike.faults_eq
  · exact alike.executors_eq
  · exact alike.kinds_eq
  · exact alike.outlines_eq
  · exact alike.fingerprints_eq
  · exact alike.cached_eq
  · simp only [World.view, List.filter_append]
    exact congrArg (· ++ _) alike.pending_eq

/-- The client's call is answered alike and leaves its view alike. -/
theorem reply_eq (alike : Alike share texts others w v) {c : Call} (timeless : Timeless c)
    (own : Names share texts True c) (also : Names share others True c) :
    ∃ reply after later, w.perform c = some (reply, after) ∧ v.perform c = some (reply, later) ∧
      after.view share = later.view share := by
  cases c with
  | findImage | find | create | metrics => exact timeless.elim
  | lookup fingerprint =>
    refine ⟨_, w, v, rfl, ?_, alike.view⟩
    simp only [World.perform, alike.fault_eq, alike.lookup_eq (own.2 trivial) (also.2 trivial)]
  | remember fingerprint id =>
    exact ⟨(), _, _, rfl, rfl, alike.view_noted fingerprint id⟩
  | abandon id reason =>
    simp only [World.perform, World.abandon, alike.fault_eq]
    split
    · exact ⟨_, w, v, rfl, rfl, alike.view⟩
    · exact ⟨_, _, _, rfl, rfl, alike.view_abandon (own.2 trivial) reason⟩
  | start id =>
    simp only [World.perform, World.start, alike.fault_eq]
    split
    · exact ⟨_, w, v, rfl, rfl, alike.view⟩
    split
    · exact alike.exists_stored (own.2 trivial) fun _ _ equal => equal
    · refine alike.exists_stored (own.2 trivial) fun job other equal => ?_
      simp only [Job.outline, Outline.mk.injEq] at equal ⊢
      simp only [equal, Option.isSome_some, and_self]
  | complete id result =>
    simp only [World.perform, World.complete, alike.fault_eq]
    split
    · exact ⟨_, w, v, rfl, rfl, alike.view⟩
    · refine alike.exists_stored (own.2 trivial) fun job other equal => ?_
      simp only [Job.outline, Outline.mk.injEq] at equal ⊢
      simp only [equal, Option.isSome_some, and_self]
  | fail id reason =>
    simp only [World.perform, World.fail, alike.fault_eq]
    split
    · exact ⟨_, w, v, rfl, rfl, alike.view⟩
    · exact alike.exists_stored (own.2 trivial) fun _ _ equal =>
        JobTable.failed_outline equal w.now v.now reason
  | checkStore => exact ⟨_, w, v, rfl, by simp only [World.perform, alike.fault_eq], alike.view⟩
  | checkQueue => exact ⟨_, w, v, rfl, by simp only [World.perform, alike.fault_eq], alike.view⟩
  | publish payload =>
    simp only [World.perform, World.publish, alike.fault_eq]
    split
    · exact ⟨_, w, v, rfl, rfl, alike.view⟩
    · exact ⟨_, _, _, rfl, rfl, alike.view_queued payload⟩
  | consume => exact own.elim
  | settle d verdict =>
    have answers : ∃ reply, ∀ w : World, ∃ after, w.perform (.settle d verdict) = some (reply, after) := by
      simp only [World.perform, World.settle]
      split
      · exact ⟨_, fun w => ⟨w, rfl⟩⟩
      · cases verdict <;> exact ⟨_, fun w => ⟨_, rfl⟩⟩
    obtain ⟨reply, answers⟩ := answers
    obtain ⟨after, answered⟩ := answers w
    obtain ⟨later, too⟩ := answers v
    refine ⟨reply, after, later, answered, too, ?_⟩
    rw [alike.left.view_spared (c := .settle d verdict) own answered,
      alike.right.view_spared (c := .settle d verdict) also too, alike.view]
  | execute task =>
    obtain ⟨⟨outcome, after⟩, answered⟩ := World.exists_perform alike.left.answering (.execute task)
    obtain ⟨⟨other, later⟩, too⟩ := World.exists_perform alike.right.answering (.execute task)
    obtain ⟨_, course, _⟩ := World.execute_eq alike.left.calm answered
    obtain ⟨_, same, _⟩ := World.execute_eq alike.right.calm too
    rw [alike.executors_eq, same] at course
    cases course
    refine ⟨outcome, after, later, answered, too, ?_⟩
    rw [alike.left.view_spared (c := .execute task) trivial answered,
      alike.right.view_spared (c := .execute task) trivial too, alike.view]
  | wait span => exact ⟨_, _, _, rfl, rfl, alike.view⟩
  | count counter => exact ⟨_, _, _, rfl, rfl, alike.view⟩

private theorem perform (alike : Alike share texts others w v) {c : Call} (timeless : Timeless c)
    (own : Names share texts True c) (also : Names share others True c) :
    ∃ reply after later, w.perform c = some (reply, after) ∧ v.perform c = some (reply, later) ∧
      Alike share texts others after later := by
  obtain ⟨reply, after, later, answered, too, view⟩ := alike.reply_eq timeless own also
  exact ⟨reply, after, later, answered, too, alike.left.perform own answered,
    alike.right.perform also too, view⟩

/-- A job of the client is recorded in both worlds, or in neither. The images that it is for may have
other numbers. -/
theorem create (alike : Alike share texts others w v) {new other : NewJob} (id : new.id = other.id)
    (type : new.type = other.type) (fingerprint : new.fingerprint = other.fingerprint)
    (own : Names share texts True (.create new)) (also : Names share others True (.create other)) :
    ∃ reply after later, w.create new = (reply, after) ∧ v.create other = (reply, later) ∧
      Alike share texts others after later ∧ ∀ known, reply = .ok (.existing known) → known ∈ share.ids := by
  have taken := alike.taken_eq (own.1.2 trivial) (fingerprint ▸ also.1.2 trivial)
  have kept := alike.left.perform (c := .create new) own rfl
  have too := alike.right.perform (c := .create other) also rfl
  simp only [World.create, alike.fault_eq] at kept too ⊢
  split at kept <;> rename_i conflict
  · rw [if_pos conflict, if_pos conflict, fingerprint]
    exact ⟨_, w, v, rfl, rfl, alike, fun _ told => by cases told⟩
  rw [if_neg conflict] at too
  rw [if_neg conflict, if_neg conflict]
  split at kept <;> rename_i broken
  · rw [if_pos broken, if_pos broken]
    exact ⟨_, w, v, rfl, rfl, alike, fun _ told => by cases told⟩
  rw [if_neg broken] at too
  rw [if_neg broken, if_neg broken]
  cases holder : w.store.fingerprints.lookup new.fingerprint with
  | some known =>
    rw [JobTable.create_taken holder, JobTable.create_taken (fingerprint ▸ taken ▸ holder)]
    refine ⟨_, w, v, rfl, rfl, alike, fun same equal => ?_⟩
    cases equal
    exact (alike.left.taken _ _ (Assoc.mem_of_lookup holder)).1 (own.1.2 trivial)
  | none =>
    have free : v.store.fingerprints.lookup other.fingerprint = none := fingerprint ▸ taken ▸ holder
    rw [JobTable.create_free holder] at kept ⊢
    rw [JobTable.create_free free] at too ⊢
    refine ⟨_, _, _, rfl, rfl, ⟨kept, too, ?_⟩, fun _ told => by cases told⟩
    refine alike.view_store (fun changed mine => ?_) ?_
    · simp only [JobTable.outline?, JobTable.job?_recorded, id]
      split
      · simp only [Option.map_some, Job.fresh, Job.outline, type]
      · exact alike.outline?_eq mine
    · simp only [JobTable.recorded, List.filter_append, id, fingerprint]
      exact congrArg (· ++ _) alike.fingerprints_eq

/-- The stores fail alike, or both tell what they have. -/
theorem find_cases (alike : Alike share texts others w v) (id : JobId) (type : JobType) :
    (∃ e, w.find id type = .error e ∧ v.find id type = .error e) ∨
      (w.find id type = .ok (w.store.find id type) ∧ v.find id type = .ok (v.store.find id type)) := by
  simp only [World.find, alike.fault_eq, alike.left.rows, alike.right.rows, List.lookup_nil]
  split
  · exact .inl ⟨_, rfl, rfl⟩
  split
  · exact .inl ⟨_, rfl, rfl⟩
  · exact .inr ⟨rfl, rfl⟩

/-- What a client finds under an id of its own. -/
theorem find_own (alike : Alike share texts others w v) {id : JobId} (mine : id ∈ share.ids)
    (type : JobType) :
    (∃ e, w.find id type = .error e ∧ v.find id type = .error e) ∨
      (w.find id type = .ok none ∧ v.find id type = .ok none) ∨
      ∃ job other, w.find id type = .ok (some job) ∧ v.find id type = .ok (some other) ∧
        job.outline = other.outline ∧ job.client = share.client ∧ other.client = share.client := by
  rcases alike.find_cases id type with failed | ⟨here, there⟩
  · exact .inl failed
  right
  rw [here, there]
  rcases JobTable.outline?_cases (alike.outline?_eq mine) with
    ⟨absent, missing⟩ | ⟨job, other, found, there, same⟩
  · simp [JobTable.find, absent, missing]
  · have types : job.type = other.type := congrArg Outline.type same
    have client := (alike.left.stored id job found).2 mine
    have owner := (alike.right.stored id other there).2 mine
    by_cases fits : other.type = type
    · exact .inr ⟨job, other, by simp [JobTable.find, found, types, fits],
        by simp [JobTable.find, there, fits], same, client, owner⟩
    · exact .inl ⟨by simp [JobTable.find, found, types, fits], by simp [JobTable.find, there, fits]⟩

end Alike

/-- What is found under an id that is not the client's is no job of the client. -/
theorem Sane.find_foreign {share : Share} {texts : List String} {w : World} (sane : Sane share texts w)
    {id : JobId} (foreign : id ∉ share.ids) {type : JobType} {job : Job}
    (found : w.find id type = .ok (some job)) : job.client ≠ share.client := by
  have there := JobTable.job?_of_find (World.find_of_found sane.rows found)
  exact fun mine => foreign ((sane.stored id job there).1 mine)

/-- Whether two programs end in alike worlds with related results when they begin in alike worlds. -/
def Parallel {α β : Type} (share : Share) (texts others : List String) (p : Service α) (q : Service β)
    (Related : α → β → Prop) : Prop :=
  ∀ ⦃w v⦄, Alike share texts others w v → ∃ a after b later, w.run p = some (a, after) ∧
    v.run q = some (b, later) ∧ Alike share texts others after later ∧ Related a b

namespace Parallel

variable {α β γ δ : Type} {share : Share} {texts others : List String}

theorem done {Related : α → β → Prop} {a : α} {b : β} (related : Related a b) :
    Parallel share texts others (.done a) (.done b) Related :=
  fun w v alike => ⟨a, w, b, v, rfl, rfl, alike, related⟩

theorem bind {Between : α → β → Prop} {Related : γ → δ → Prop} {p : Service α} {q : Service β}
    {f : α → Service γ} {g : β → Service δ} (first : Parallel share texts others p q Between)
    (second : ∀ a b, Between a b → Parallel share texts others (f a) (g b) Related) :
    Parallel share texts others (p.bind f) (q.bind g) Related := by
  intro w v alike
  obtain ⟨a, mid, b, middle, ran, also, alike, between⟩ := first alike
  obtain ⟨c, after, d, later, goes, too, alike, related⟩ := second a b between alike
  refine ⟨c, after, d, later, ?_, ?_, alike, related⟩
  · rw [World.run, Program.run_bind, ← World.run, ran]
    exact goes
  · rw [World.run, Program.run_bind, ← World.run, also]
    exact too

theorem call {Related : α → β → Prop} {c : Call} {f : c.Reply → Service α} {g : c.Reply → Service β}
    (timeless : Timeless c) (own : Names share texts True c) (also : Names share others True c)
    (next : ∀ reply, Parallel share texts others (f reply) (g reply) Related) :
    Parallel share texts others (.call c f) (.call c g) Related := by
  intro w v alike
  obtain ⟨reply, after, later, answered, too, alike⟩ := alike.perform timeless own also
  obtain ⟨a, last, b, final, ran, goes, alike, related⟩ := next reply alike
  exact ⟨a, last, b, final, (World.run_answered answered).trans ran, (World.run_answered too).trans goes,
    alike, related⟩

theorem create {Related : α → β → Prop} {new other : NewJob} {f : Except StoreError Creation → Service α}
    {g : Except StoreError Creation → Service β} (id : new.id = other.id) (type : new.type = other.type)
    (fingerprint : new.fingerprint = other.fingerprint) (own : Names share texts True (.create new))
    (also : Names share others True (.create other))
    (next : ∀ reply, (∀ known, reply = .ok (.existing known) → known ∈ share.ids) →
      Parallel share texts others (f reply) (g reply) Related) :
    Parallel share texts others (.call (.create new) f) (.call (.create other) g) Related := by
  intro w v alike
  obtain ⟨reply, after, later, made, too, alike, mine⟩ := alike.create id type fingerprint own also
  obtain ⟨a, last, b, final, ran, goes, alike, related⟩ := next reply mine alike
  have answered : w.perform (.create new) = some (reply, after) := congrArg some made
  have answered' : v.perform (.create other) = some (reply, later) := congrArg some too
  exact ⟨a, last, b, final, (World.run_answered answered).trans ran, (World.run_answered answered').trans goes,
    alike, related⟩

theorem find {Related : α → β → Prop} {id : JobId} {type : JobType}
    {f : Except StoreError (Option Job) → Service α} {g : Except StoreError (Option Job) → Service β}
    (mine : id ∈ share.ids)
    (failed : ∀ e, Parallel share texts others (f (.error e)) (g (.error e)) Related)
    (missing : Parallel share texts others (f (.ok none)) (g (.ok none)) Related)
    (found : ∀ job other : Job, job.outline = other.outline → job.client = share.client →
      other.client = share.client →
      Parallel share texts others (f (.ok (some job))) (g (.ok (some other))) Related) :
    Parallel share texts others (.call (.find id type) f) (.call (.find id type) g) Related := by
  intro w v alike
  have next : Parallel share texts others (f (w.find id type)) (g (v.find id type)) Related := by
    rcases alike.find_own mine type with ⟨e, here, there⟩ | ⟨here, there⟩ | ⟨job, other, here, there, same⟩
    · rw [here, there]
      exact failed e
    · rw [here, there]
      exact missing
    · rw [here, there]
      exact found job other same.1 same.2.1 same.2.2
  exact next alike

/-- A client that asks for a job of another hears of a failing store, of nothing, or of what it cannot
tell from nothing. -/
theorem find_foreign {Related : α → β → Prop} {id : JobId} {type : JobType}
    {f : Except StoreError (Option Job) → Service α} {g : Except StoreError (Option Job) → Service β}
    (foreign : id ∉ share.ids)
    (failed : ∀ e, Parallel share texts others (f (.error e)) (g (.error e)) Related)
    (hidden : ∀ found there : Option Job, (∀ job ∈ found, job.client ≠ share.client) →
      (∀ job ∈ there, job.client ≠ share.client) →
      Parallel share texts others (f (.ok found)) (g (.ok there)) Related) :
    Parallel share texts others (.call (.find id type) f) (.call (.find id type) g) Related := by
  intro w v alike
  have next : Parallel share texts others (f (w.find id type)) (g (v.find id type)) Related := by
    rcases alike.find_cases id type with ⟨e, here, there⟩ | ⟨here, there⟩
    · rw [here, there]
      exact failed e
    · rw [here, there]
      refine hidden _ _ (fun job found => ?_) (fun job found => ?_)
      · exact alike.left.find_foreign foreign (here.trans (congrArg Except.ok found))
      · exact alike.right.find_foreign foreign (there.trans (congrArg Except.ok found))
  exact next alike

theorem of_within {p : Service α} (own : p.Within fun c => Timeless c ∧ Names share texts True c ∧
    Names share others True c) : Parallel share texts others p p Eq := by
  induction p with
  | done a => exact .done rfl
  | call c next ih => exact .call own.1.1 own.1.2.1 own.1.2.2 fun reply => ih reply (own.2 reply)

private theorem symm {Related : α → β → Prop} {p : Service α} {q : Service β}
    (parallel : Parallel share texts others p q Related) :
    Parallel share others texts q p fun b a => Related a b := by
  intro w v alike
  obtain ⟨a, after, b, later, ran, also, stay, related⟩ := parallel alike.symm
  exact ⟨b, later, a, after, also, ran, stay.symm, related⟩

/-- A program that leaves what the client sees may come first on one side. -/
theorem left {Related : β → γ → Prop} {p : Service α} {f : α → Service β} {q : Service γ}
    (spares : Spares share texts p) (rest : ∀ a, Parallel share texts others (f a) q Related) :
    Parallel share texts others (p.bind f) q Related := by
  intro w v alike
  obtain ⟨a, mid, ran, sane, same⟩ := spares alike.left
  obtain ⟨b, after, c, later, goes, also, stay, related⟩ := rest a ⟨sane, alike.right, same.trans alike.view⟩
  refine ⟨b, after, c, later, ?_, also, stay, related⟩
  rw [World.run, Program.run_bind, ← World.run, ran]
  exact goes

theorem right {Related : γ → β → Prop} {p : Service α} {f : α → Service β} {q : Service γ}
    (spares : Spares share others p) (rest : ∀ a, Parallel share texts others q (f a) Related) :
    Parallel share texts others q (p.bind f) Related :=
  (left spares fun a => (rest a).symm).symm

end Parallel

end Vetting.Memory
