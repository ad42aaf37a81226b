import GridKernel.Proofs.Function.Reach
import GridKernel.Proofs.Session.Keys

namespace GridKernel

namespace Registry

inductive Later (r : Registry) : Registry → Prop where
  | refl : Later r r
  | register {q next : Registry} {d : Definition} {how : Registration} (before : Later r q)
      (accepted : q.register d = (next, .ok how)) : Later r next

theorem Later.trans {r m q : Registry} (first : r.Later m) (second : m.Later q) : r.Later q := by
  induction second with
  | refl => exact first
  | register _ accepted ih => exact .register ih accepted

theorem Later.valid {r q : Registry} (later : r.Later q) (valid : r.Valid) : q.Valid := by
  induction later with
  | refl => exact valid
  | register _ accepted ih =>
    obtain ⟨checked, rfl, _⟩ := register_parts accepted
    exact store_valid _ _ ih checked

theorem Later.extends {r q : Registry} (later : r.Later q) : r.Extends q := by
  induction later with
  | refl => exact extends_refl r
  | register _ accepted ih => exact extends_trans ih (register_extends accepted)

theorem Later.nextGeneration_le {r q : Registry} (later : r.Later q) : r.nextGeneration ≤ q.nextGeneration := by
  induction later with
  | refl => exact Nat.le_refl _
  | register _ accepted ih =>
    obtain ⟨_, rfl, _⟩ := register_parts accepted
    exact Nat.le_succ_of_le ih

-- A name has kept what it had, or it has a stamp that was not given yet.
theorem Later.get? {r q : Registry} (later : r.Later q) (name : String) :
    q.get? name = r.get? name ∨ ∃ d, q.get? name = some d ∧ r.nextGeneration ≤ d.generation := by
  induction later with
  | refl => exact .inl rfl
  | @register q _ d _ before accepted ih =>
    obtain ⟨_, rfl, _⟩ := register_parts accepted
    by_cases same : name = d.name
    · subst same
      exact .inr ⟨_, q.get?_store_self d, before.nextGeneration_le⟩
    · rw [q.get?_store_other d same]
      exact ih

theorem stamp_lt {r : Registry} (valid : r.Valid) {name : String} {d : Definition} (found : r.get? name = some d) :
    d.generation < r.nextGeneration :=
  valid.stamped d (r.get?_mem name d found).1

-- What is the same at two moments was the same all the time between them.
theorem Later.between {r m q : Registry} (valid : r.Valid) (first : r.Later m) (second : m.Later q) {name : String}
    (same : q.get? name = r.get? name) : m.get? name = r.get? name := by
  have unstamped (d : Definition) (found : q.get? name = some d) (new : r.nextGeneration ≤ d.generation) : False :=
    Nat.not_lt_of_le new (stamp_lt valid (same.symm.trans found))
  rcases first.get? name with kept | ⟨d, found, new⟩
  · exact kept
  · rcases second.get? name with kept | ⟨e, last, newer⟩
    · exact (unstamped d (kept.trans found) new).elim
    · exact (unstamped e last (Nat.le_trans first.nextGeneration_le newer)).elim

theorem Agrees.between {r m q : Registry} {roots : List String} (valid : r.Valid) (first : r.Later m)
    (second : m.Later q) (agrees : r.Agrees q roots) : r.Agrees m roots :=
  fun name reached => first.between valid second (agrees name reached)

theorem agrees_store (r : Registry) (valid : r.Valid) (d : Definition) (roots : List String) :
    r.Agrees (r.store d) roots ↔ ¬ r.Reaches roots d.name := by
  constructor
  · intro agrees reached
    have stored := (agrees d.name reached).symm.trans (r.get?_store_self d)
    exact Nat.lt_irrefl _ (stamp_lt valid stored)
  · intro unreached name reached
    refine r.get?_store_other d ?_
    rintro rfl
    exact unreached reached

def attempt (r : Registry) (d : Definition) : Registry := (r.register d).1

def moment (strict : Bool) (history : List Definition) (t : Nat) : Registry :=
  (history.take t).foldl attempt (new strict)

theorem attempt_later (r : Registry) (d : Definition) : r.Later (r.attempt d) := by
  unfold attempt
  rcases r.register_cases d with ⟨e, refused⟩ | ⟨how, accepted, _⟩
  · rw [refused]
    exact .refl
  · rw [accepted]
    exact .register .refl accepted

section Moments

variable (strict : Bool) (history : List Definition)

theorem moment_succ {t : Nat} {d : Definition} (here : history[t]? = some d) :
    moment strict history (t + 1) = (moment strict history t).attempt d := by
  rw [moment, List.take_add_one, here, List.foldl_append]
  rfl

theorem moment_done {t : Nat} (done : history[t]? = none) :
    moment strict history (t + 1) = moment strict history t := by
  rw [moment, List.take_add_one, done, Option.toList_none, List.append_nil]
  rfl

theorem moment_step (t : Nat) : (moment strict history t).Later (moment strict history (t + 1)) := by
  cases here : history[t]? with
  | none =>
    rw [moment_done strict history here]
    exact .refl
  | some d =>
    rw [moment_succ strict history here]
    exact attempt_later _ d

theorem moment_later {s t : Nat} (before : s ≤ t) : (moment strict history s).Later (moment strict history t) := by
  induction before with
  | refl => exact .refl
  | step _ ih => exact ih.trans (moment_step strict history _)

theorem moment_valid (t : Nat) : (moment strict history t).Valid :=
  (moment_later strict history (Nat.zero_le t)).valid (new_valid strict)

end Moments

end Registry

namespace Kernel

theorem signature_eq_iff {r q : Registry} (valid : r.Valid) (later : r.Later q) (k : Kernel) :
    k.signature r = k.signature q ↔ r.Agrees q k.body.calls := by
  rw [Registry.agrees_iff]
  constructor
  · intro same
    exact (functions_eq valid later.extends k k (same_of_signature same).2).symm
  · intro same
    rw [signature, signature, functions, functions, same]

theorem signature_between {r m q : Registry} (valid : r.Valid) (first : r.Later m) (second : m.Later q) (k : Kernel)
    (same : k.signature r = k.signature q) : k.signature r = k.signature m :=
  (signature_eq_iff valid first k).mpr
    (((signature_eq_iff valid (first.trans second) k).mp same).between valid first second)

theorem signature_store (r : Registry) (valid : r.Valid) (k : Kernel) {d : Definition} {next : Registry}
    {how : Registration} (accepted : r.register d = (next, .ok how)) :
    k.signature r = k.signature next ↔ ¬ r.Reaches k.body.calls d.name := by
  have stored := (Registry.register_parts accepted).2.1
  rw [signature_eq_iff valid (.register .refl accepted), stored, Registry.agrees_store r valid]

-- The attempt at a moment succeeds, under a name that the kernel reaches then.
def Touched (k : Kernel) (strict : Bool) (history : List Definition) (t : Nat) : Prop :=
  ∃ d next how, history[t]? = some d ∧ (Registry.moment strict history t).register d = (next, .ok how) ∧
    (Registry.moment strict history t).Reaches k.body.calls d.name

section Moments

variable (k : Kernel) (strict : Bool) (history : List Definition)

theorem signature_succ (t : Nat) :
    k.signature (Registry.moment strict history t) = k.signature (Registry.moment strict history (t + 1)) ↔
      ¬ k.Touched strict history t := by
  cases here : history[t]? with
  | none => simp [Registry.moment_done strict history here, Touched, here]
  | some d =>
    rw [Registry.moment_succ strict history here, Registry.attempt]
    rcases (Registry.moment strict history t).register_cases d with ⟨e, refused⟩ | ⟨how, accepted, _⟩
    · simp [Touched, here, refused]
    · rw [accepted, signature_store _ (Registry.moment_valid strict history t) k accepted]
      simp [Touched, here, accepted]

theorem signature_moments {first last : Nat} (before : first ≤ last) :
    k.signature (Registry.moment strict history first) = k.signature (Registry.moment strict history last) ↔
      ∀ t, first ≤ t → t < last → ¬ k.Touched strict history t := by
  have valid := Registry.moment_valid strict history first
  constructor
  · intro same t after earlier
    -- The key was the same at this attempt and right after it.
    have still := signature_between valid (Registry.moment_later strict history after)
      (Registry.moment_later strict history (Nat.le_of_lt earlier)) k same
    have behind := signature_between valid (Registry.moment_later strict history (Nat.le_succ_of_le after))
      (Registry.moment_later strict history earlier) k same
    exact (k.signature_succ strict history t).mp (still.symm.trans behind)
  · intro untouched
    induction before with
    | refl => rfl
    | @step last before ih =>
      have kept := ih fun t after earlier => untouched t after (Nat.lt_succ_of_lt earlier)
      exact kept.trans ((k.signature_succ strict history last).mpr (untouched last before (Nat.lt_succ_self last)))

end Moments

theorem redefinition_changes_reaching_keys (strict : Bool) (history : List Definition) (k : Kernel) :
    let r := Registry.moment strict history
    -- Two moments have the same key exactly if no reached name was registered between them.
    (∀ first last, first < last → (k.signature (r first) = k.signature (r last) ↔
      ∀ t d next how, first ≤ t → t < last → history[t]? = some d → (r t).register d = (next, .ok how) →
        ¬ (r t).Reaches k.body.calls d.name)) ∧
    -- A name out of reach does not change the key, and neither does an attempt that is refused.
    (∀ t d, history[t]? = some d → ¬ (r t).Reaches k.body.calls d.name ∨ (∃ next e, (r t).register d = (next, .error e)) →
      k.signature (r (t + 1)) = k.signature (r t)) ∧
    -- A helper that the kernel calls, by itself or through others, does when it is replaced.
    (∀ t d next, history[t]? = some d → (r t).register d = (next, .ok .replaced) →
      (r t).Reaches k.body.calls d.name → k.signature (r (t + 1)) ≠ k.signature (r t)) ∧
    -- A key that was left does not come back.
    ∀ first middle last, first < middle → middle < last → k.signature (r first) ≠ k.signature (r middle) →
      k.signature (r first) ≠ k.signature (r last) := by
  intro r
  refine ⟨?_, ?_, ?_, ?_⟩
  · intro first last before
    rw [k.signature_moments strict history (Nat.le_of_lt before)]
    constructor
    · intro untouched t d next how after earlier here accepted reached
      exact untouched t after earlier ⟨d, next, how, here, accepted, reached⟩
    · rintro untouched t after earlier ⟨d, next, how, here, accepted, reached⟩
      exact untouched t d next how after earlier here accepted reached
  · intro t d here quiet
    refine ((k.signature_succ strict history t).mpr ?_).symm
    rintro ⟨e, next, how, also, accepted, reached⟩
    cases here.symm.trans also
    rcases quiet with unreached | ⟨_, fault, refused⟩
    · exact unreached reached
    · cases refused.symm.trans accepted
  · intro t d next here accepted reached same
    exact (k.signature_succ strict history t).mp same.symm ⟨d, next, _, here, accepted, reached⟩
  · intro first middle last before later changed same
    exact changed (signature_between (Registry.moment_valid strict history first)
      (Registry.moment_later strict history (Nat.le_of_lt before))
      (Registry.moment_later strict history (Nat.le_of_lt later)) k same)

end Kernel

-- Two helpers that call each other. The second is missing for a while, and in between a helper is
-- registered that neither of them calls.
def callsOnly (name callee : String) : Definition :=
  .make name (.kernel ⟨[⟨"x", none⟩], 0, [.ret (.call callee [.param 0])]⟩) none none

def circleHistory : List Definition := [callsOnly "outer" "inner", callsOnly "other" "outer", callsOnly "inner" "outer"]

def circleKernel : Kernel where
  body := ⟨[], 0, [.ret (.call "outer" [.thread .x])]⟩
  types := []
  grid := ⟨[3], by decide, by decide, by decide⟩
  mode := .auto
  route := .pinned

theorem circle_reaches {name : String} (reached : (Registry.moment false circleHistory 1).Reaches ["outer"] name) :
    name = "outer" ∨ name = "inner" := by
  induction reached with
  | root member => exact .inl (List.mem_singleton.mp member)
  | call _ known calls ih =>
    rcases ih with rfl | rfl
    · have outer : (Registry.moment false circleHistory 1).get? "outer" =
          some { callsOnly "outer" "inner" with generation := 8 } := rfl
      cases outer.symm.trans known
      exact .inr (List.mem_singleton.mp calls)
    · have inner : (Registry.moment false circleHistory 1).get? "inner" = none := rfl
      cases inner.symm.trans known

theorem Kernel.circle_changes_twice :
    let r := Registry.moment false circleHistory
    circleKernel.signature (r 0) ≠ circleKernel.signature (r 3) ∧
      circleKernel.signature (r 1) = circleKernel.signature (r 2) ∧
      circleKernel.signature (r 2) ≠ circleKernel.signature (r 3) := by
  intro r
  have calls : circleKernel.body.calls = ["outer"] := rfl
  obtain ⟨exactly, _, _, never⟩ := redefinition_changes_reaching_keys false circleHistory circleKernel
  have first : circleKernel.signature (r 0) ≠ circleKernel.signature (r 1) := by
    intro same
    refine (exactly 0 1 (by decide)).mp same 0 _ _ _ (by decide) (by decide) rfl rfl ?_
    rw [calls]
    exact .root (List.mem_singleton.mpr rfl)
  have between : circleKernel.signature (r 1) = circleKernel.signature (r 2) := by
    refine (exactly 1 2 (by decide)).mpr fun t d next how after earlier here _ reached => ?_
    obtain rfl : t = 1 := by omega
    cases here
    rw [calls] at reached
    rcases circle_reaches reached with wrong | wrong <;> exact absurd wrong (by decide)
  refine ⟨never 0 1 3 (by decide) (by decide) first, between, ?_⟩
  intro same
  refine (exactly 2 3 (by decide)).mp same 2 _ _ _ (by decide) (by decide) rfl rfl ?_
  rw [calls]
  exact .call (.root (List.mem_singleton.mpr rfl)) (d := { callsOnly "outer" "inner" with generation := 8 }) rfl
    (List.mem_singleton.mpr rfl)

end GridKernel
