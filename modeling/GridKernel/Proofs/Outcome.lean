import GridKernel.Error
import Mathlib.Data.List.Forall2

namespace GridKernel

-- Every failure on the device but what evaluation itself comes to.
def RunFault.Technical : RunFault → Prop
  | .device _ => False
  | .overflow => False
  | _ => True

def KernelError.Technical : KernelError → Prop
  | .compilationFailed _ => True
  | .executionFailed cause => cause.Technical
  | _ => False

theorem KernelError.Technical.allowsFallback {e : KernelError} (technical : e.Technical) :
    e.allowsFallback = true := by
  cases e with
  | compilationFailed | executionFailed => rfl
  | invalidArgument | redefinitionConflict | evaluation | config | overflow => exact technical.elim

theorem KernelError.ofRun_technical {cause : RunFault} (technical : cause.Technical) :
    KernelError.ofRun cause = .executionFailed cause := by
  cases cause with
  | overflow => exact technical.elim
  | _ => rfl

theorem KernelError.ofRun_ofEval (cause : EvalError) :
    KernelError.ofRun (.ofEval cause) = .executionFailed (.device cause) ∧ KernelError.ofEval cause = .evaluation cause ∨
      KernelError.ofRun (.ofEval cause) = .overflow ∧ KernelError.ofEval cause = .overflow := by
  cases cause with
  | overflow => exact .inr ⟨rfl, rfl⟩
  | _ => exact .inl ⟨rfl, rfl⟩

-- Two computations fail alike or end in related results.
inductive SameResult {ε α β : Type} (R : α → β → Prop) : Except ε α → Except ε β → Prop where
  | error (e : ε) : SameResult R (.error e) (.error e)
  | ok {a : α} {b : β} (related : R a b) : SameResult R (.ok a) (.ok b)

theorem SameResult.self {ε α : Type} (x : Except ε α) : SameResult Eq x x := by
  cases x with
  | error e => exact .error e
  | ok a => exact .ok rfl

theorem SameResult.eq {ε α : Type} {x y : Except ε α} (same : SameResult Eq x y) : x = y := by
  cases same with
  | error e => rfl
  | ok equal => rw [equal]

theorem SameResult.cons {ε α β : Type} {R : α → β → Prop} {x : Except ε α} {y : Except ε β}
    {xs : Except ε (List α)} {ys : Except ε (List β)} (head : SameResult R x y)
    (tail : SameResult (List.Forall₂ R) xs ys) :
    SameResult (List.Forall₂ R) (do let a ← x; let as ← xs; .ok (a :: as))
      (do let b ← y; let bs ← ys; .ok (b :: bs)) := by
  cases head with
  | error e => exact .error e
  | ok first =>
    cases tail with
    | error e => exact .error e
    | ok rest => exact .ok (.cons first rest)

section
variable {ε δ α β : Type}

theorem bind_eq_ok {x : Except ε α} {f : α → Except ε β} {r : β} (ran : (x >>= f) = .ok r) :
    ∃ a, x = .ok a ∧ f a = .ok r := by
  cases x with
  | error e => cases ran
  | ok a => exact ⟨a, rfl, ran⟩

theorem bind_eq_error {x : Except ε α} {f : α → Except ε β} {e : ε} (ran : (x >>= f) = .error e) :
    x = .error e ∨ ∃ a, x = .ok a ∧ f a = .error e := by
  cases x with
  | error d => cases ran; exact .inl rfl
  | ok a => exact .inr ⟨a, rfl, ran⟩

theorem mapError_eq_ok {x : Except ε α} {f : ε → δ} {r : α} (ran : x.mapError f = .ok r) :
    x = .ok r := by
  cases x with
  | error e => cases ran
  | ok a => cases ran; rfl

theorem mapError_eq_error {x : Except ε α} {f : ε → δ} {d : δ} (ran : x.mapError f = .error d) :
    ∃ e, x = .error e ∧ f e = d := by
  cases x with
  | error e => cases ran; exact ⟨e, rfl, rfl⟩
  | ok a => cases ran

theorem map_eq_ok {x : Except ε α} {f : α → β} {r : β} (ran : x.map f = .ok r) :
    ∃ a, x = .ok a ∧ f a = r := by
  cases x with
  | error e => cases ran
  | ok a => cases ran; exact ⟨a, rfl, rfl⟩

theorem map_eq_error {x : Except ε α} {f : α → β} {e : ε} (ran : x.map f = .error e) :
    x = .error e := by
  cases x with
  | error e => cases ran; rfl
  | ok a => cases ran

theorem mapM_eq_ok {f : α → Except ε β} {xs : List α} {ys : List β} (ran : xs.mapM f = .ok ys) :
    List.Forall₂ (fun x y => f x = .ok y) xs ys := by
  induction xs generalizing ys with
  | nil => cases ran; exact .nil
  | cons x xs ih =>
    rw [List.mapM_cons] at ran
    obtain ⟨y, first, rest⟩ := bind_eq_ok ran
    obtain ⟨zs, others, last⟩ := bind_eq_ok rest
    cases last
    exact .cons first (ih others)

theorem mapM_mem {f : α → Except ε β} {xs : List α} {ys : List β} (ran : xs.mapM f = .ok ys) {y : β} (member : y ∈ ys) :
    ∃ x ∈ xs, f x = .ok y := by
  have each := mapM_eq_ok ran
  clear ran
  induction each with
  | nil => cases member
  | cons head _ ih =>
    rcases List.mem_cons.mp member with rfl | later
    · exact ⟨_, List.mem_cons_self, head⟩
    · obtain ⟨x, listed, same⟩ := ih later
      exact ⟨x, List.mem_cons_of_mem _ listed, same⟩

theorem mapM_eq_map {f : α → Except ε β} {g : α → β} {xs : List α} (each : ∀ x ∈ xs, f x = .ok (g x)) :
    xs.mapM f = .ok (xs.map g) := by
  induction xs with
  | nil => rfl
  | cons x xs ih =>
    rw [List.mapM_cons, each x List.mem_cons_self, ih fun y later => each y (List.mem_cons_of_mem _ later)]
    rfl

theorem mapM_eq_error {f : α → Except ε β} {xs : List α} {e : ε} (ran : xs.mapM f = .error e) :
    ∃ x ∈ xs, f x = .error e := by
  induction xs with
  | nil => cases ran
  | cons x xs ih =>
    rw [List.mapM_cons] at ran
    rcases bind_eq_error ran with first | ⟨y, _, rest⟩
    · exact ⟨x, by simp, first⟩
    · rcases bind_eq_error rest with others | ⟨ys, _, last⟩
      · obtain ⟨z, member, failed⟩ := ih others
        exact ⟨z, List.mem_cons_of_mem _ member, failed⟩
      · cases last

theorem mapM_ok_iff {f : α → Except ε β} {xs : List α} : (∃ ys, xs.mapM f = .ok ys) ↔ ∀ x ∈ xs, ∃ y, f x = .ok y := by
  constructor
  · rintro ⟨ys, ran⟩ x member
    have each := mapM_eq_ok ran
    clear ran
    induction each with
    | nil => cases member
    | @cons first out rest outs head _ ih =>
      rcases List.mem_cons.mp member with rfl | later
      · exact ⟨out, head⟩
      · exact ih later
  · intro each
    cases ran : xs.mapM f with
    | ok ys => exact ⟨ys, rfl⟩
    | error e =>
      obtain ⟨x, member, failed⟩ := mapM_eq_error ran
      obtain ⟨y, out⟩ := each x member
      cases failed.symm.trans out

-- A list of computations stops at the first that fails, and all before it have gone well.
theorem mapM_error_iff {f : α → Except ε β} {xs : List α} {e : ε} :
    xs.mapM f = .error e ↔ ∃ before x after, xs = before ++ x :: after ∧ f x = .error e ∧ ∀ y ∈ before, ∃ b, f y = .ok b := by
  induction xs with
  | nil =>
    constructor
    · intro failed
      cases failed
    · rintro ⟨before, x, after, split, _⟩
      cases before <;> cases split
  | cons first rest ih =>
    rw [List.mapM_cons]
    cases ran : f first with
    | error d =>
      constructor
      · intro failed
        cases failed
        exact ⟨[], first, rest, rfl, ran, by simp⟩
      · rintro ⟨before, x, after, split, failed, fine⟩
        cases before with
        | nil =>
          cases split
          cases ran.symm.trans failed
          rfl
        | cons y before =>
          cases split
          obtain ⟨b, well⟩ := fine first List.mem_cons_self
          cases ran.symm.trans well
    | ok b =>
      have later : ((Except.ok b : Except ε β) >>= fun b => rest.mapM f >>= fun bs => pure (b :: bs)) = .error e ↔
          rest.mapM f = .error e := by
        cases rest.mapM f with
        | ok bs => constructor <;> intro wrong <;> cases wrong
        | error d => constructor <;> intro same <;> cases same <;> rfl
      rw [later, ih]
      constructor
      · rintro ⟨before, x, after, rfl, failed, fine⟩
        exact ⟨first :: before, x, after, rfl, failed, List.forall_mem_cons.mpr ⟨⟨b, ran⟩, fine⟩⟩
      · rintro ⟨before, x, after, split, failed, fine⟩
        cases before with
        | nil =>
          cases split
          cases ran.symm.trans failed
        | cons y before =>
          cases split
          exact ⟨before, x, after, rfl, failed, (List.forall_mem_cons.mp fine).2⟩

theorem foldlM_eq_error {f : β → α → Except ε β} {xs : List α} {b : β} {e : ε} (ran : xs.foldlM f b = .error e) :
    ∃ x ∈ xs, ∃ c, f c x = .error e := by
  induction xs generalizing b with
  | nil => cases ran
  | cons x xs ih =>
    rw [List.foldlM_cons] at ran
    rcases bind_eq_error ran with first | ⟨c, _, rest⟩
    · exact ⟨x, by simp, b, first⟩
    · obtain ⟨y, member, d, failed⟩ := ih rest
      exact ⟨y, List.mem_cons_of_mem _ member, d, failed⟩

-- An item that always fails, in the only way any of them can, is not passed.
theorem foldlM_stops {f : β → α → Except ε β} {x : α} {e : ε} (stops : ∀ b, f b x = .error e)
    (only : ∀ b y d, f b y = .error d → d = e) {xs : List α} (member : x ∈ xs) (b : β) : xs.foldlM f b = .error e := by
  induction member generalizing b with
  | head rest =>
    rw [List.foldlM_cons, stops]
    rfl
  | @tail y rest _ ih =>
    rw [List.foldlM_cons]
    cases first : f b y with
    | error d =>
      rw [only b y d first]
      rfl
    | ok c => exact ih c

end

end GridKernel
