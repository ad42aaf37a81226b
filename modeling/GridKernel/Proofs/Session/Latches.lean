import GridKernel.Proofs.Session.Interleaving
import GridKernel.Proofs.Session.Routes

namespace GridKernel.Crowd

-- The step at which the attempt of a caller fails: its build or its launch on the device, or the
-- arrival of an outcome that it waited for.
inductive Fails (w : Crowd) (t : Nat) (aim : Aim) : Prop where
  | build {functions : Snapshot} {flight : Nat} {device : Device} {e : KernelError}
      (here : w.callers t = .builds ⟨aim, functions⟩ flight) (present : w.session.device = some device)
      (failed : (w.session.build device aim.kernel functions).2 = .error e)
  | arrival {functions : Snapshot} {flight : Nat} {e : KernelError} (here : w.callers t = .waits ⟨aim, functions⟩ flight)
      (failed : w.session.cache.received? flight = some (.error e))
  | launch {functions : Snapshot} {found : CachedProgram Signature Compiled} {device : Device} {call : Call} {route : Route}
      {signature : Signature} {e : KernelError} (runs : aim = .run call route signature)
      (here : w.callers t = .answered ⟨aim, functions⟩ (some (.ok found))) (present : w.session.device = some device)
      (failed : (w.session.execute device call.kernel found.artifact.program call.args).2 = .error e)

section Generations

theorem served_generation (s : Session) (kernels : List Kernel) (found : CachedProgram Signature Compiled) (aim : Aim) :
    (served s kernels found aim).1.generation? = s.generation? := by
  cases aim with
  | compile | shader => rfl
  | run call route signature =>
    unfold served
    dsimp only
    cases present : s.device with
    | none => rfl
    | some device =>
      obtain ⟨launches, ⟨uploaded, launched⟩, _⟩ := s.execute_device device call.kernel found.artifact.program call.args
      dsimp only
      generalize s.execute device call.kernel found.artifact.program call.args = ran at launched
      obtain ⟨after, result⟩ := ran
      cases launched
      cases result <;> simp [Session.generation?, present]

theorem next_generation (s : Session) (kernels : List Kernel) (phase : Phase) :
    (next s kernels phase).1.generation? = s.generation? := by
  cases phase with
  | builds errand flight =>
    unfold next
    dsimp only
    cases present : s.device with
    | none => rfl
    | some device =>
      dsimp only
      rcases s.build_device device errand.aim.kernel errand.functions with ⟨e, failed⟩ | ⟨program, made⟩
      · rw [failed]
        simp [Session.generation?, present]
      · rw [made]
        simp [Session.generation?, present]
  | waits errand flight =>
    unfold next
    dsimp only
    split <;> rfl
  | answered errand ending =>
    cases ending with
    | none => rfl
    | some outcome =>
      cases outcome with
      | error e => rfl
      | ok found => exact served_generation s kernels found errand.aim
  | refused aim e =>
    have same : (next s kernels (.refused aim e)).1 = s := retreats_session s kernels e aim
    rw [same]
  | _ => rfl

-- Only a restored context moves the generation, by one.
theorem act_generation (w : Crowd) (a : Act) :
    (w.act a).session.generation? = w.session.generation? ∨
      a = .restore ∧ ∃ g, w.session.generation? = some g ∧ (w.act a).session.generation? = some (g + 1) := by
  cases a with
  | start t command =>
    refine .inl ?_
    unfold act
    dsimp only
    split
    · obtain ⟨registry, _, same⟩ := enter_framed w.session w.kernels command
      rw [take_session, same]
      rfl
    · rfl
  | go t => exact .inl (next_generation w.session w.kernels (w.callers t))
  | define | abandon | invalidate | clear => exact .inl rfl
  | faults | lose =>
    refine .inl ?_
    simp only [act, Session.step, Session.generation?, Option.map_map]
    rfl
  | restore =>
    dsimp only [act, Session.step, Session.generation?]
    cases w.session.device with
    | none => exact .inl rfl
    | some d =>
      rw [Option.map_some, Option.map_some, Option.map_some, Device.restore]
      split
      · exact .inr ⟨rfl, _, rfl, rfl⟩
      · exact .inl rfl

theorem after_generation (w : Crowd) (later : List Act) :
    (w.session.generation? = none ∧ (after w later).session.generation? = none) ∨
      ∃ before now, w.session.generation? = some before ∧ (after w later).session.generation? = some now ∧ before ≤ now ∧
        (.restore ∉ later → before = now) := by
  induction later with
  | nil =>
    cases here : w.session.generation? with
    | none => exact .inl ⟨rfl, here⟩
    | some g => exact .inr ⟨g, g, rfl, here, Nat.le_refl g, fun _ => rfl⟩
  | cons a later ih =>
    rw [after_cons]
    rcases act_generation (after w later) a with same | ⟨rfl, g, was, moved⟩
    · rw [same]
      refine ih.imp id ?_
      rintro ⟨before, now, first, last, below, equal⟩
      exact ⟨before, now, first, last, below, fun quiet => equal fun inside => quiet (List.mem_cons_of_mem _ inside)⟩
    · rcases ih with ⟨_, absent⟩ | ⟨before, now, first, last, below, _⟩
      · cases was.symm.trans absent
      · cases was.symm.trans last
        exact .inr ⟨before, g + 1, first, moved, Nat.le_succ_of_le below, fun quiet => absurd List.mem_cons_self quiet⟩

end Generations

variable {start : Crowd} {past : List Act} {t : Nat}

def Failed (start : Crowd) (past : List Act) (t : Nat) (aim : Aim) : Prop :=
  ∃ fall, .go t :: fall <:+ past ∧ Fails (after start fall) t aim

-- The caller whose attempt failed has read the generation since.
def Latched (start : Crowd) (past : List Act) (t : Nat) (aim : Aim) (g : Nat) : Prop :=
  ∃ fall between, .go t :: (between ++ .go t :: fall) <:+ past ∧ Fails (after start fall) t aim ∧
    (after start (between ++ .go t :: fall)).session.generation? = some g

def Aim.Of (n : Nat) (k : Kernel) (failed : Signature) : Aim → Prop
  | .compile made signature => signature = failed ∧ k = { made with route := k.route }
  | .run call _ signature => signature = failed ∧ call.number = n
  | .shader _ => False

-- A new kernel has no latch to begin with.
def Aim.Plain : Aim → Prop
  | .compile made _ => made.route = .pinned
  | .run _ _ _ | .shader _ => True

-- What holds of a caller, by where it is: whoever has failed did so at some step.
def Accounts (start : Crowd) (past : List Act) (t : Nat) : Phase → Prop
  | .checked made => made.route = .pinned
  | .wants aim => aim.Plain
  | .holds errand | .builds errand _ | .waits errand _ => errand.aim.Plain
  | .built errand _ ending | .settled errand _ ending | .answered errand ending =>
    errand.aim.Plain ∧ ∀ e, ending = some (.error e) → Failed start past t errand.aim
  | .refused aim _ => aim.Plain ∧ (Failed start past t aim ∨ (after start past).session.generation? = none)
  | .latches call signature g => ∃ route, Latched start past t (.run call route signature) g
  | .idle | .signs _ _ | .compares _ _ _ _ | .recovers _ _ | .host _ | .ran _ _ | .replaced _ => True

def Remembers (start : Crowd) (past : List Act) (kernels : List Kernel) : Prop :=
  ∀ n k failed g, kernels[n]? = some k → k.route = .fallback failed g →
    ∃ t aim, aim.Of n k failed ∧ Latched start past t aim g

structure Accounted (start : Crowd) (past : List Act) : Prop where
  callers : ∀ t, Accounts start past t ((after start past).callers t)
  kernels : Remembers start past (after start past).kernels

section
variable (a : Act)

theorem Failed.act {aim : Aim} (failed : Failed start past t aim) : Failed start (a :: past) t aim := by
  obtain ⟨fall, within, fails⟩ := failed
  exact ⟨fall, within.trans (List.suffix_cons a past), fails⟩

theorem Latched.act {aim : Aim} {g : Nat} (latched : Latched start past t aim g) : Latched start (a :: past) t aim g := by
  obtain ⟨fall, between, within, rest⟩ := latched
  exact ⟨fall, between, within.trans (List.suffix_cons a past), rest⟩

theorem Remembers.act {kernels : List Kernel} (remembers : Remembers start past kernels) :
    Remembers start (a :: past) kernels := by
  intro n k failed g there latched
  obtain ⟨t, aim, own, noted⟩ := remembers n k failed g there latched
  exact ⟨t, aim, own, noted.act a⟩

theorem absent_stays (absent : (after start past).session.generation? = none) :
    (after start (a :: past)).session.generation? = none := by
  rw [after_cons]
  rcases act_generation (after start past) a with same | ⟨_, g, some, _⟩
  · exact same.trans absent
  · cases absent.symm.trans some

theorem Accounts.act {phase : Phase} (accounts : Accounts start past t phase) : Accounts start (a :: past) t phase := by
  cases phase with
  | built | settled | answered => exact ⟨accounts.1, fun e failed => (accounts.2 e failed).act a⟩
  | refused => exact ⟨accounts.1, accounts.2.imp (Failed.act a) (absent_stays a)⟩
  | latches =>
    obtain ⟨route, latched⟩ := accounts
    exact ⟨route, latched.act a⟩
  | _ => exact accounts

end

theorem Failed.latched {aim : Aim} {g : Nat} (failed : Failed start past t aim)
    (now : (after start past).session.generation? = some g) : Latched start (.go t :: past) t aim g := by
  obtain ⟨fall, ⟨between, rfl⟩, fails⟩ := failed
  exact ⟨fall, between, List.suffix_rfl, fails, now⟩

theorem Remembers.append {kernels : List Kernel} (remembers : Remembers start past kernels) {k : Kernel}
    (new : ∀ failed g, k.route = .fallback failed g → ∃ t aim, aim.Of kernels.length k failed ∧ Latched start past t aim g) :
    Remembers start past (kernels ++ [k]) := by
  intro n l failed g there latched
  rcases Nat.lt_trichotomy n kernels.length with old | last | beyond
  · rw [List.getElem?_append_left old] at there
    exact remembers n l failed g there latched
  · subst last
    rw [List.getElem?_concat_length] at there
    cases there
    exact new failed g latched
  · rw [List.getElem?_eq_none (by rw [List.length_append, List.length_singleton]; exact beyond)] at there
    cases there

theorem Remembers.rerouted {kernels : List Kernel} (remembers : Remembers start past kernels) {number : Nat} {route : Route}
    (new : ∀ k failed g, route = .fallback failed g → ∃ t aim, aim.Of number k failed ∧ Latched start past t aim g) :
    Remembers start past (rerouted kernels number route) := by
  intro n l failed g there latched
  rw [Crowd.rerouted, List.getElem?_modify] at there
  obtain ⟨k, old, made⟩ := Option.map_eq_some_iff.mp there
  by_cases same : number = n
  · subst same
    rw [if_pos rfl] at made
    subst made
    exact new _ failed g latched
  · rw [if_neg same] at made
    subst made
    exact remembers n k failed g old latched

def Settles (start : Crowd) (past : List Act) (t : Nat) (turn : Turn) : Prop :=
  Accounts start past t turn.2.2 ∧ Remembers start past turn.2.1

theorem served_settles {s : Session} {kernels : List Kernel} {errand : Errand} {found : CachedProgram Signature Compiled}
    (now : s = (after start past).session) (remembers : Remembers start (.go t :: past) kernels)
    (here : (after start past).callers t = .answered errand (some (.ok found))) :
    Settles start (.go t :: past) t (served s kernels found errand.aim) := by
  obtain ⟨aim, functions⟩ := errand
  cases aim with
  | compile made signature => exact ⟨trivial, remembers.append fun _ _ wrong => Route.noConfusion wrong⟩
  | shader k => exact ⟨trivial, remembers⟩
  | run call route signature =>
    unfold served
    dsimp only
    cases present : s.device with
    | none =>
      have absent : (after start past).session.generation? = none := by
        rw [← now, Session.generation?, present, Option.map_none]
      exact ⟨⟨trivial, .inr (absent_stays _ absent)⟩, remembers⟩
    | some device =>
      dsimp only
      cases ran : s.execute device call.kernel found.artifact.program call.args with
      | mk after result =>
        cases result with
        | error e =>
          subst now
          exact ⟨⟨trivial, .inl ⟨past, List.suffix_rfl, .launch rfl here present (by rw [ran])⟩⟩, remembers⟩
        | ok out =>
          refine ⟨?_, remembers⟩
          dsimp only
          split <;> trivial

theorem retreats_settles {s : Session} {kernels : List Kernel} {e : KernelError} {aim : Aim}
    (now : s = (after start past).session) (remembers : Remembers start (.go t :: past) kernels) (plain : aim.Plain)
    (failed : Failed start past t aim ∨ (after start past).session.generation? = none) :
    Settles start (.go t :: past) t (retreats s kernels e aim) := by
  cases aim with
  | shader k => exact ⟨trivial, remembers⟩
  | compile made signature =>
    refine ⟨trivial, ?_⟩
    unfold retreats
    dsimp only
    split
    · refine remembers.append fun latch g route => ?_
      rcases s.latch_parts made signature with ⟨_, same⟩ | ⟨generation, read, same⟩
      · rw [same, show made.route = .pinned from plain] at route
        cases route
      · rw [same] at route ⊢
        cases route
        rw [now] at read
        have happened := failed.resolve_right (by simp [read])
        exact ⟨t, .compile made signature, ⟨rfl, rfl⟩, happened.latched read⟩
    · exact remembers
  | run call route signature =>
    unfold retreats
    dsimp only
    split
    · split
      · rename_i generation read
        rw [now] at read
        have happened := failed.resolve_right (by simp [read])
        exact ⟨⟨route, happened.latched read⟩, remembers⟩
      · exact ⟨trivial, remembers⟩
    · exact ⟨trivial, remembers⟩

theorem next_settles (accounted : Accounted start past) (t : Nat) :
    Settles start (.go t :: past) t
      (next (after start past).session (after start past).kernels ((after start past).callers t)) := by
  have remembers := accounted.kernels.act (.go t)
  have accounts := accounted.callers t
  have carried := accounts.act (.go t)
  cases here : (after start past).callers t with
  | idle | host | ran | replaced => exact ⟨trivial, remembers⟩
  | checked made =>
    rw [here] at carried
    exact ⟨carried, remembers⟩
  | signs call route =>
    refine ⟨?_, remembers⟩
    dsimp only [next]
    rcases compared_parts call route (call.kernel.signature (after start past).session.registry) with ⟨g, same⟩ | same
    · rw [same]
      trivial
    · rw [same]
      trivial
  | compares call route signature generation =>
    refine ⟨?_, remembers⟩
    dsimp only [next]
    split <;> trivial
  | wants aim =>
    rw [here] at carried
    refine ⟨?_, remembers⟩
    dsimp only [next]
    split
    · exact carried
    · rename_i missing
      have absent : (after start past).session.generation? = none := by
        rw [Session.generation?_eq_none]
        simpa using missing
      exact ⟨carried, .inr (absent_stays _ absent)⟩
  | holds errand =>
    rw [here] at carried
    refine ⟨?_, remembers⟩
    dsimp only [next]
    cases ((after start past).session.cache.lookup errand.key).2 with
    | hit found => exact ⟨carried, by simp⟩
    | joined flight => exact carried
    | leads flight => exact carried
  | builds errand flight =>
    rw [here] at carried
    dsimp only [next]
    cases present : (after start past).session.device with
    | none => exact ⟨carried, remembers⟩
    | some device =>
      refine ⟨⟨carried, fun e failed => ⟨past, List.suffix_rfl, ?_⟩⟩, remembers⟩
      exact .build here present (Option.some.inj failed)
  | built errand flight ending =>
    rw [here] at carried
    exact ⟨carried, remembers⟩
  | settled errand flight ending =>
    rw [here] at carried
    exact ⟨carried, remembers⟩
  | waits errand flight =>
    rw [here] at carried
    dsimp only [next]
    cases arrived : (after start past).session.cache.received? flight with
    | none => exact ⟨carried, remembers⟩
    | some outcome =>
      refine ⟨⟨carried, fun e failed => ⟨past, List.suffix_rfl, ?_⟩⟩, remembers⟩
      exact .arrival here (arrived.trans failed)
  | answered errand ending =>
    rw [here] at carried
    cases ending with
    | none => exact ⟨trivial, remembers⟩
    | some outcome =>
      cases outcome with
      | error e => exact ⟨⟨carried.1, .inl (carried.2 e rfl)⟩, remembers⟩
      | ok found => exact served_settles rfl remembers here
  | refused aim e =>
    rw [here] at accounts
    exact retreats_settles rfl remembers accounts.1 accounts.2
  | latches call signature g =>
    rw [here] at carried
    obtain ⟨route, latched⟩ := carried
    refine ⟨trivial, remembers.rerouted fun k failed h same => ?_⟩
    cases same
    exact ⟨t, .run call route signature, ⟨rfl, rfl⟩, latched⟩
  | recovers call out => exact ⟨trivial, remembers.rerouted fun _ _ _ wrong => Route.noConfusion wrong⟩

theorem enter_settles (accounted : Accounted start past) (t : Nat) (command : Command) :
    Settles start (.start t command :: past) t
      (enter (after start past).session (after start past).kernels command) := by
  have remembers := accounted.kernels.act (.start t command)
  unfold enter
  cases command with
  | compile body settings =>
    dsimp only
    cases made : Kernel.make body settings with
    | error e => exact ⟨trivial, remembers⟩
    | ok k =>
      have pinned := Kernel.make_route body settings k made
      dsimp only
      split
      · refine ⟨trivial, remembers.append fun failed g route => ?_⟩
        rw [pinned] at route
        cases route
      · exact ⟨pinned, remembers⟩
  | run number args =>
    dsimp only
    split
    · exact ⟨trivial, remembers⟩
    · refine ⟨?_, remembers⟩
      unfold called
      split
      · trivial
      · split <;> trivial
  | shader number =>
    dsimp only
    split
    · exact ⟨trivial, remembers⟩
    · refine ⟨?_, remembers⟩
      dsimp only
      split <;> trivial
  | register d =>
    dsimp only
    split <;> exact ⟨trivial, remembers⟩

theorem Accounted.took (accounted : Accounted start past) {a : Act} {turn : Turn}
    (acts : (after start past).act a = (after start past).take t turn) (settles : Settles start (a :: past) t turn) :
    Accounted start (a :: past) := by
  have step : after start (a :: past) = (after start past).take t turn := acts
  refine ⟨fun other => ?_, ?_⟩
  · rw [step]
    by_cases moved : other = t
    · subst moved
      rw [take_self]
      exact settles.1
    · rw [take_other _ moved]
      exact (accounted.callers other).act a
  · rw [step]
    exact settles.2

theorem Accounted.aside (accounted : Accounted start past) {a : Act} {session : Session}
    (acts : (after start past).act a = { after start past with session := session }) : Accounted start (a :: past) := by
  have step : after start (a :: past) = { after start past with session := session } := acts
  refine ⟨fun t => ?_, ?_⟩
  · rw [step]
    exact (accounted.callers t).act a
  · rw [step]
    exact accounted.kernels.act a

theorem act_accounted (accounted : Accounted start past) (a : Act) : Accounted start (a :: past) := by
  cases a with
  | start t command =>
    by_cases free : (after start past).callers t = .idle
    · exact accounted.took (by rw [act, free]) (enter_settles accounted t command)
    · exact accounted.aside (act_busy free command)
  | go t => exact accounted.took rfl (next_settles accounted t)
  | abandon t =>
    refine accounted.took rfl ⟨?_, accounted.kernels.act _⟩
    have carried := (accounted.callers t).act (.abandon t)
    dsimp only
    cases here : (after start past).callers t with
    | builds errand flight =>
      rw [here] at carried
      exact ⟨carried, by simp⟩
    | _ =>
      rw [here] at carried
      exact carried
  | define | invalidate | clear | faults | lose | restore => exact accounted.aside rfl

theorem after_accounted (device : Option Device) (order : ByteOrder) (strict : Bool) (capacity : Option Nat)
    (past : List Act) : Accounted (new device order strict capacity) past := by
  induction past with
  | nil =>
    refine ⟨fun _ => trivial, ?_⟩
    intro n k failed g there
    cases there
  | cons a past ih => exact act_accounted ih a

section Retries
variable {w : Crowd} {call : Call} {route : Route} {g : Nat}

-- A caller on its way through the comparison of a latch.
def Compares (call : Call) (route : Route) (g : Nat) (phase : Phase) : Prop :=
  phase = .signs call route ∨ ∃ signature, phase = .compares call route signature g

-- Nobody else can take a caller out of the comparison, and in another generation than the latched one it
-- leaves for the device.
theorem Compares.act {failed : Signature} (latch : route = .fallback failed g) (other : w.session.generation? ≠ some g)
    (here : Compares call route g (w.callers t)) (a : Act) :
    Compares call route g ((w.act a).callers t) ∨ ∃ signature, (w.act a).callers t = .wants (.run call route signature) := by
  have busy : w.callers t ≠ .idle := by
    rcases here with same | ⟨_, same⟩ <;> simp [same]
  cases a with
  | start caller command =>
    by_cases own : caller = t
    · rw [own, act_busy busy]
      exact .inl here
    · unfold Crowd.act
      dsimp only
      split
      · rw [take_other _ (Ne.symm own)]
        exact .inl here
      · exact .inl here
  | go caller =>
    by_cases own : caller = t
    · subst own
      rw [Crowd.act, take_self]
      rcases here with same | ⟨signature, same⟩
      · rw [same, latch]
        dsimp only [next, compared]
        split
        · exact .inl (.inr ⟨_, rfl⟩)
        · exact .inr ⟨_, rfl⟩
      · rw [same]
        dsimp only [next]
        rw [if_neg other]
        exact .inr ⟨signature, rfl⟩
    · rw [Crowd.act, take_other _ (Ne.symm own)]
      exact .inl here
  | abandon caller =>
    by_cases own : caller = t
    · subst own
      rw [Crowd.act, take_self]
      rcases here with same | ⟨signature, same⟩
      · rw [same]
        exact .inl (.inl rfl)
      · rw [same]
        exact .inl (.inr ⟨signature, rfl⟩)
    · rw [Crowd.act, take_other _ (Ne.symm own)]
      exact .inl here
  | define | invalidate | clear | faults | lose | restore => exact .inl here

theorem Compares.after {failed : Signature} {now : Nat} (latch : route = .fallback failed g)
    (current : w.session.generation? = some now) (passed : g < now) (here : Compares call route g (w.callers t))
    (more : List Act) :
    Compares call route g ((Crowd.after w more).callers t) ∨
      ∃ mid signature, mid <:+ more ∧ (Crowd.after w mid).callers t = .wants (.run call route signature) := by
  induction more with
  | nil => exact .inl here
  | cons a more ih =>
    rcases ih with still | ⟨mid, signature, within, wants⟩
    · have other : (Crowd.after w more).session.generation? ≠ some g := by
        intro back
        rcases after_generation w more with ⟨absent, _⟩ | ⟨before, last, was, there, below, _⟩
        · cases current.symm.trans absent
        · cases current.symm.trans was
          cases there.symm.trans back
          exact Nat.not_lt_of_le below passed
      rcases still.act latch other a with compares | ⟨signature, wants⟩
      · exact .inl compares
      · exact .inr ⟨a :: more, signature, List.suffix_rfl, wants⟩
    · exact .inr ⟨mid, signature, within.trans (List.suffix_cons a more), wants⟩

end Retries

-- A latched generation is never ahead of the device.
theorem Latched.passed {aim : Aim} {g : Nat} (latched : Latched start past t aim g)
    (other : (after start past).session.generation? ≠ some g) :
    ∃ now, (after start past).session.generation? = some now ∧ g < now := by
  obtain ⟨fall, between, ⟨rest, rfl⟩, _, read⟩ := latched
  rw [List.append_cons, after_append] at other ⊢
  rcases after_generation (after start (between ++ .go t :: fall)) (rest ++ [.go t]) with
    ⟨absent, _⟩ | ⟨before, now, was, current, below, _⟩
  · cases read.symm.trans absent
  · cases read.symm.trans was
    refine ⟨now, current, Nat.lt_of_le_of_ne below ?_⟩
    rintro rfl
    exact other current

section
variable {w : Crowd} {n : Nat} {k : Kernel} {args : List Arg} {failed : Signature} {g : Nat}
variable (free : w.callers t = .idle) (there : w.kernels[n]? = some k) (latch : k.route = .fallback failed g)
variable (checked : k.checkArgs args = .ok ())
include free there latch checked

theorem run_signs : w.act (.start t (.run n args)) = w.take t (w.session, w.kernels, .signs ⟨n, k, args⟩ k.route) := by
  rw [act, free]
  dsimp only [enter]
  rw [there]
  dsimp only [called]
  rw [checked, latch]

-- A latch with the current key and generation keeps a run from the device.
theorem latch_holds (key : k.signature w.session.registry = failed) (current : w.session.generation? = some g) :
    (after w [.go t, .go t, .start t (.run n args)]).callers t = .host ⟨n, k, args⟩ := by
  have signed : Alone 1 (w.session, w.kernels, .signs ⟨n, k, args⟩ k.route)
      (w.session, w.kernels, .compares ⟨n, k, args⟩ k.route failed g) := by
    refine .once ?_
    rw [next, key, latch, compared, if_pos rfl]
  have stays : Alone 1 (w.session, w.kernels, .compares ⟨n, k, args⟩ k.route failed g)
      (w.session, w.kernels, .host ⟨n, k, args⟩) := by
    refine .once ?_
    rw [next, if_pos current]
  have ran := (signed.trans stays).after w t
  rw [← run_signs free there latch checked] at ran
  exact (congrArg (fun w => w.callers t) ran).trans (take_self _ _ _)

end

theorem latches_follow_failures (device : Option Device) (order : ByteOrder) (strict : Bool) (capacity : Option Nat)
    (past : List Act) (n : Nat) (k : Kernel) (failed : Signature) (g : Nat)
    (there : (after (new device order strict capacity) past).kernels[n]? = some k) (latch : k.route = .fallback failed g) :
    let moment := after (new device order strict capacity)
    -- An attempt of the kernel under this key failed, and its caller read the generation at a later step.
    (∃ t aim fall between before, aim.Of n k failed ∧ Fails (moment fall) t aim ∧
      .go t :: (between ++ .go t :: fall) <:+ past ∧ (moment fall).session.generation? = some before ∧
      (moment (between ++ .go t :: fall)).session.generation? = some g ∧ before ≤ g ∧ (.restore ∉ between → before = g)) ∧
    -- A run that begins in another generation tries the device, whatever the others do meanwhile.
    ∀ t args more, (moment past).callers t = .idle → k.checkArgs args = .ok () →
      (moment past).session.generation? ≠ some g →
      Compares ⟨n, k, args⟩ k.route g ((moment (more ++ .start t (.run n args) :: past)).callers t) ∨
        ∃ mid signature, mid <:+ more ∧
          (moment (mid ++ .start t (.run n args) :: past)).callers t = .wants (.run ⟨n, k, args⟩ k.route signature) := by
  intro moment
  obtain ⟨reader, aim, own, noted⟩ := (after_accounted device order strict capacity past).kernels n k failed g there latch
  constructor
  · obtain ⟨fall, between, within, fails, read⟩ := noted
    have since := after_generation (moment fall) (between ++ [.go reader])
    rw [← after_append, ← List.append_cons] at since
    rcases since with ⟨_, absent⟩ | ⟨before, now, was, current, below, equal⟩
    · cases read.symm.trans absent
    · cases read.symm.trans current
      refine ⟨reader, aim, fall, between, before, own, fails, within, was, read, below, fun quiet => ?_⟩
      exact equal (by simpa using quiet)
  · intro t args more free checked other
    obtain ⟨now, current, passed⟩ := noted.passed other
    have begun : moment (.start t (.run n args) :: past) =
        (moment past).take t ((moment past).session, (moment past).kernels, .signs ⟨n, k, args⟩ k.route) :=
      run_signs free there latch checked
    have here : Compares ⟨n, k, args⟩ k.route g ((moment (.start t (.run n args) :: past)).callers t) := by
      rw [begun, take_self]
      exact .inl rfl
    have generation : (moment (.start t (.run n args) :: past)).session.generation? = some now := by
      rw [begun]
      exact current
    have ran := here.after latch generation passed more
    simp only [moment, after_append]
    exact ran

-- Caller 0 has compiled a kernel, and caller 1 has its program for a run when the context is lost. The launch
-- fails, and the context is restored before caller 1 reads the generation.
def failedLaunch : List Act :=
  [.go 1, .lose, .go 1] ++ (List.replicate 2 (.go 1) ++ [.start 1 (.run 0 twiceCall.args)]) ++
    (List.replicate 7 (.go 0) ++ [.start 0 compileTwice]) ++ [.start 0 (.register doubled)]

def lateLatch : List Act := [.go 1, .go 1, .restore] ++ failedLaunch

def lostDevice : Device := { hostOrder := some .little, built := 1, lost := true }

theorem lost_launch (s : Session) (codec : s.codec = ⟨.little⟩) (text : String) :
    s.execute lostDevice twice (twiceProgram text).artifact.program twiceCall.args =
      (lostDevice, .error (.executionFailed .contextLost)) := by
  have same : s.execute = doubledSession.execute := execute_eq codec
  have device : (doubledSession.execute lostDevice twice (twiceProgram "").artifact.program
      twiceCall.args).1 = lostDevice := by
    decide +kernel
  have failed : (doubledSession.execute lostDevice twice (twiceProgram "").artifact.program
      twiceCall.args).2.map Output.words = .error (.executionFailed .contextLost) := by
    decide +kernel
  rw [same, show (twiceProgram text).artifact.program = (twiceProgram "").artifact.program from rfl]
  exact Prod.ext device (map_eq_error failed)

def lostRun : Phase := .refused runErrand.aim (.executionFailed .contextLost)

theorem failedLaunch_ends : let w := after (new (some {}) .little false none) failedLaunch
    w.callers 1 = lostRun ∧ w.callers 2 = .idle ∧ w.kernels = [twice] ∧ w.session.device = some lostDevice ∧
      w.session.registry = doubledSession.registry := by
  obtain ⟨text, ready⟩ := twiceReady_reached
  rw [failedLaunch, ready]
  let lost : Session := { twiceLoaded doubledSession text with
    cache := ((twiceCache text).lookup runErrand.key).1
    device := some lostDevice }
  generalize here : twiceReady text = w
  have last : (after w [.go 1, .lose, .go 1]).callers 2 = .idle ∧
      ((after w [.go 1, .lose, .go 1]).session, (after w [.go 1, .lose, .go 1]).kernels,
        (after w [.go 1, .lose, .go 1]).callers 1) =
        next lost [twice] (next (twiceLoaded doubledSession text) [twice] (.holds runErrand)).2.2 := by
    rw [← here]
    exact ⟨rfl, rfl⟩
  have launched : next lost [twice] (.answered runErrand (some (.ok (twiceProgram text)))) = (lost, [twice], lostRun) := by
    have failed := lost_launch lost rfl text
    change served lost [twice] (twiceProgram text) (.run twiceCall .device (twice.signatureOf stamped)) = _
    unfold served
    dsimp only [lost] at failed ⊢
    rw [show twiceCall.kernel = twice from rfl, failed]
    rfl
  rw [twice_hit rfl, launched] at last
  obtain ⟨free, turn⟩ := last
  simp only [Prod.mk.injEq] at turn
  obtain ⟨session, kernels, caller⟩ := turn
  refine ⟨caller, free, kernels, ?_, ?_⟩
  · rw [session]
  · rw [session]
    rfl

theorem latches_late {w : Crowd} (here : w.callers 1 = lostRun) (kernels : w.kernels = [twice])
    (present : w.session.device = some lostDevice) :
    (after w [.restore]).callers 1 = lostRun ∧
      (after w [.go 1, .restore]).callers 1 = .latches twiceCall (twice.signatureOf stamped) 1 ∧
      (after w [.go 1, .go 1, .restore]).kernels = [doubledKernel "x" (.fallback (twice.signatureOf stamped) 1)] ∧
      (after w [.go 1, .go 1, .restore]).session = w.session.step .restore ∧
      (after w [.go 1, .go 1, .restore]).callers 2 = w.callers 2 := by
  have restored : after w [.restore] = { w with session := w.session.step .restore } := rfl
  have generation : (w.session.step .restore).generation? = some 1 := by
    simp [Session.step, Session.generation?, present, Device.restore, lostDevice]
  have read : after w [.go 1, .restore] =
      (after w [.restore]).take 1 (w.session.step .restore, [twice], .latches twiceCall (twice.signatureOf stamped) 1) := by
    rw [after_cons, restored, act]
    dsimp only
    rw [here, kernels]
    change take _ 1 (retreats _ [twice] _ (.run twiceCall .device (twice.signatureOf stamped))) = _
    unfold retreats
    dsimp only
    rw [generation]
    rfl
  have wrote : after w [.go 1, .go 1, .restore] = (after w [.go 1, .restore]).take 1 (w.session.step .restore,
      [doubledKernel "x" (.fallback (twice.signatureOf stamped) 1)], .host twiceCall) := by
    rw [after_cons, read, act, take_self]
    rfl
  refine ⟨by rw [restored, here], by rw [read, take_self], by rw [wrote]; rfl, by rw [wrote]; rfl, ?_⟩
  rw [wrote, take_other _ (by decide), read, take_other _ (by decide), restored]

-- Who has failed is not failing again.
theorem Fails.first {w : Crowd} {t : Nat} {aim : Aim} (fails : Fails w t aim) :
    (∀ other e, w.callers t ≠ .refused other e) ∧ ∀ call signature g, w.callers t ≠ .latches call signature g := by
  cases fails with
  | build here | arrival here | launch _ here => simp [here]

-- The latch holds a generation in which nothing failed, so a context that is back is not tried again.
theorem restored_context_stays_latched :
    let moment := after (new (some {}) .little false none)
    let k := doubledKernel "x" (.fallback (twice.signatureOf stamped) 1)
    (moment lateLatch).kernels[0]? = some k ∧
      (∀ t aim fall, .go t :: fall <:+ lateLatch → Fails (moment fall) t aim → (moment fall).session.generation? = some 0) ∧
      (∃ device, (moment lateLatch).session.device = some device ∧ device.lost = false ∧ device.generation = 1) ∧
      (moment ([.go 2, .go 2, .start 2 (.run 0 twiceCall.args)] ++ lateLatch)).callers 2 =
        .host ⟨0, k, twiceCall.args⟩ := by
  intro moment k
  obtain ⟨failed, free, kernels, present, registry⟩ := failedLaunch_ends
  obtain ⟨waiting, reading, latched, session, others⟩ := latches_late failed kernels present
  have ended (acts : List Act) : moment (acts ++ failedLaunch) = after (moment failedLaunch) acts := after_append _ _ _
  rw [← ended] at waiting reading latched session others
  have device : (moment lateLatch).session.device = some { lostDevice with lost := false, generation := 1 } := by
    rw [lateLatch, session]
    simp [Session.step, present, Device.restore, lostDevice]
  have there : (moment lateLatch).kernels[0]? = some k := by
    rw [lateLatch, latched]
    rfl
  refine ⟨there, ?_, ⟨_, device, rfl, rfl⟩, ?_⟩
  · intro t aim fall within fails
    -- After the restore the caller only reads and writes.
    rcases List.suffix_cons_iff.mp within with same | within
    · cases same
      exact absurd reading (fails.first.2 _ _ _)
    rcases List.suffix_cons_iff.mp within with same | within
    · cases same
      exact absurd waiting (fails.first.1 _ _)
    rcases List.suffix_cons_iff.mp within with same | within
    · cases same
    have quiet : .restore ∉ fall := by
      intro inside
      have there := within.subset (List.mem_cons_of_mem _ inside)
      simp [failedLaunch] at there
    rcases after_generation (new (some {}) .little false none) fall with ⟨absent, _⟩ | ⟨before, now, was, current, _, equal⟩
    · cases absent
    · cases equal quiet
      exact current.trans was.symm
  · have idle : (moment lateLatch).callers 2 = .idle := others.trans free
    have generation : (moment lateLatch).session.generation? = some 1 := by
      rw [Session.generation?, device]
      rfl
    have same : (moment lateLatch).session.registry = doubledSession.registry := by
      rw [lateLatch, session, ← registry]
      rfl
    have key : k.signature (moment lateLatch).session.registry = twice.signatureOf stamped := by
      rw [same, Kernel.signature, twice_functions]
      rfl
    rw [show moment (_ ++ lateLatch) = _ from after_append _ _ _]
    exact latch_holds idle there rfl rfl key generation

end GridKernel.Crowd
