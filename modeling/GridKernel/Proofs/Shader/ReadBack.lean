import GridKernel.Proofs.Function.Registrations
import GridKernel.Proofs.Shader.Acceptance
import GridKernel.Proofs.Shader.Preservation
import GridKernel.Proofs.Shader.Readings

namespace GridKernel.Shader

def Rereads (texts : List String) (lines : List Line) : Prop :=
  List.Forall₂ (fun text l => ∀ k, StandsAs text k ↔ k = l) texts lines

theorem lowerBlock_rereads {names : Names} (identified : names.Identified) {stmts : List Stmt} {commands : List Command}
    (lowered : lowerBlock names stmts = .ok commands) (depth : Nat) : Rereads (blockLines depth commands) (names.linesOf stmts) :=
  (lowerBlock_spells identified stmts commands depth lowered).imp fun _ _ spells => spells.stands

theorem snapshot_identified {registry : Registry} (valid : registry.Valid) {roots : List String} {names : Names}
    (known : names.lookup = (registry.snapshot roots).get?) : names.Identified := by
  intro name d found
  rw [known] at found
  obtain ⟨member, rfl⟩ := registry.get?_mem name d (Registry.snapshot_get?.mp found).1
  exact (d.validate_iff.mp (valid.checked d member)).1

def kernelNames (r : Request) : Names := ⟨r.functions.get?, r.types, (positions ValueType.isArray r.types).idxOf?⟩

def helperNames (r : Request) (d : Definition) : Names := ⟨r.functions.get?, d.paramTypes, fun _ => none⟩

-- A helper is written from the definition of its name.
def Restates (r : Request) (d : Definition) (helper : Helper) : Prop :=
  ∃ body, d.body = .kernel body ∧ helper.name = d.name ∧
    Rereads (blockLines 1 helper.body) ((helperNames r d).linesOf body.stmts)

theorem helpers_restate {r : Request} (identified : ∀ d, (helperNames r d).Identified) {all : List Definition}
    {lowered : List (Option Helper)} (each : List.Forall₂ (fun d out => lowerHelper r.functions d = .ok out) all lowered)
    (bodies : ∀ d ∈ all, d.body.isNative = false) : List.Forall₂ (Restates r) all (lowered.filterMap id) := by
  induction each with
  | nil => exact .nil
  | @cons d out all lowered head _ ih =>
    obtain ⟨here, later⟩ := List.forall_mem_cons.mp bodies
    obtain ⟨body, commands, kernel, block, rfl⟩ := lowerHelper_parts head here
    exact .cons ⟨body, kernel, rfl, lowerBlock_rereads (identified d) block 1⟩ (ih later)

-- Whatever is translated with the helpers of a snapshot reads back: expressions on their own, and every line
-- of a kernel and of its helpers.
theorem emitted_text_reads_back (registry : Registry) (reached : registry.Reached) (roots : List String) :
    (∀ names e t, names.lookup = (registry.snapshot roots).get? → lower names e = .ok t →
      ∀ tree, ReadsAs t.text tree ↔ tree = names.tree e) ∧
    ∀ r program, r.functions = registry.snapshot roots → build r = .ok program →
      Rereads (blockLines 1 program.body) ((kernelNames r).linesOf r.body.stmts) ∧
      List.Forall₂ (Restates r) r.functions.functions program.helpers := by
  have valid := Registry.reached_valid reached
  constructor
  · intro names e t known lowered tree
    exact (lower_spells (snapshot_identified valid known) e t lowered).expression.reads tree
  · intro r program known built
    have parts := build_parts built
    obtain ⟨lowered, ran, listed⟩ := parts.helpers
    have lookup : r.functions.get? = (registry.snapshot roots).get? := by rw [known]
    rw [listed]
    refine ⟨lowerBlock_rereads (snapshot_identified valid lookup) parts.body 1, ?_⟩
    apply helpers_restate (fun d => snapshot_identified valid lookup) (mapM_eq_ok ran)
    intro d member
    exact (checkDevice_parts parts.device d member).1

-- The sum of two calls, and a comparison of a difference from a negative number with infinity.
def skewed : Expr := .binary .lt (.binary .sub (.thread .x) (.ofFloat (-0.5))) (.ofFloat (1.0 / 0.0))

def sharingRequest : Request := ⟨sharingBody, [], tangledGrid, tangled.snapshot sharingBody.calls⟩

theorem sharing_reads_back :
    (∀ tree, ReadsAs "select(0.0, 1.0, (thread.x - (-0.5)) < kf_bits(0x7f800000u))" tree ↔
      tree = .call "select" [.number ⟨0⟩, .number ⟨0x3f800000⟩,
        .binary .lt (.binary .sub (.member (.name "thread") "x") (.negate (.number ⟨0x3f000000⟩)))
          (.call "kf_bits" [.bits 0x7f800000])]) ∧
    ∃ program, build sharingRequest = .ok program ∧
      Rereads (blockLines 1 program.body) [.ret (.binary .add (.call "fn_left" [.name "thread", .member (.name "thread") "x"])
        (.call "fn_right" [.name "thread", .member (.name "thread") "y"]))] ∧
      List.Forall₂ (Restates sharingRequest) sharingRequest.functions.functions program.helpers := by
  obtain ⟨expressions, programs⟩ := emitted_text_reads_back tangled tangled_reached sharingBody.calls
  constructor
  · have lowered : ∃ t, lower (kernelNames sharingRequest) skewed = .ok t ∧
        t.text = "select(0.0, 1.0, (thread.x - (-0.5)) < kf_bits(0x7f800000u))" := ⟨_, rfl, by decide⟩
    have half : Single.ofFloat (Double.ofFloat (-0.5)).toFloat = ⟨0xbf000000⟩ := by decide
    have infinity : Single.ofFloat (Double.ofFloat (1.0 / 0.0)).toFloat = ⟨0x7f800000⟩ := by decide
    have tree : (kernelNames sharingRequest).tree skewed = .call "select" [.number ⟨0⟩, .number ⟨0x3f800000⟩,
        .binary .lt (.binary .sub (.member (.name "thread") "x") (constantTree (Single.ofFloat (Double.ofFloat (-0.5)).toFloat)))
          (constantTree (Single.ofFloat (Double.ofFloat (1.0 / 0.0)).toFloat))] := rfl
    obtain ⟨t, lowered, text⟩ := lowered
    have reads := expressions _ skewed t rfl lowered
    rw [text, tree, half, infinity] at reads
    exact reads
  · have built : ∃ program, build sharingRequest = .ok program := by
      rw [sharingRequest, sharing_snapshot]
      exact ⟨_, rfl⟩
    obtain ⟨program, built⟩ := built
    obtain ⟨kernel, helpers⟩ := programs sharingRequest program rfl built
    refine ⟨program, built, ?_, helpers⟩
    unfold kernelNames at kernel
    rw [sharingRequest, sharing_snapshot] at kernel
    exact kernel

end GridKernel.Shader
