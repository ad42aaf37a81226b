import GridKernel.Session.State
import GridKernel.Proofs.Function.Reach
import GridKernel.Proofs.Kernel.Parameters
import GridKernel.Proofs.Shader.Recursion

namespace GridKernel

namespace Shader

def Names.Admits (names : Names) : Expr → Prop
  | .param index => names.isArray index = false
  | .index param _ => (names.slot? param).isSome = true
  | .call name args => ∃ callee, names.lookup name = some callee ∧ callee.paramTypes.length = args.length
  | _ => True

inductive Decides (names : Names) (nodes : List Expr) {α : Type} : Except CompileFault α → Prop where
  | ok {a : α} (all : ∀ node ∈ nodes, names.Admits node) : Decides names nodes (.ok a)
  | error {fault : CompileFault} (one : ∃ node ∈ nodes, ¬ names.Admits node) (other : ∀ chain, fault ≠ .recursion chain) :
      Decides names nodes (.error fault)

section
variable {names : Names} {nodes rest : List Expr} {α β : Type} {x : Except CompileFault α}

theorem Decides.ok_iff (decides : Decides names nodes x) : (∃ a, x = .ok a) ↔ ∀ node ∈ nodes, names.Admits node := by
  cases decides with
  | ok all => exact ⟨fun _ => all, fun _ => ⟨_, rfl⟩⟩
  | error one _ =>
    obtain ⟨node, member, refused⟩ := one
    refine ⟨fun accepted => ?_, fun all => absurd (all node member) refused⟩
    obtain ⟨a, wrong⟩ := accepted
    cases wrong

theorem Decides.bind {f : α → Except CompileFault β} (first : Decides names nodes x) (next : ∀ a, Decides names rest (f a)) :
    Decides names (nodes ++ rest) (x >>= f) := by
  cases first with
  | error one other =>
    obtain ⟨node, member, refused⟩ := one
    exact .error ⟨node, List.mem_append_left _ member, refused⟩ other
  | @ok a all =>
    have second := next a
    change Decides names (nodes ++ rest) (f a)
    cases ran : f a with
    | ok b =>
      rw [ran] at second
      cases second with
      | ok others => exact .ok fun node member => (List.mem_append.mp member).elim (all node) (others node)
    | error fault =>
      rw [ran] at second
      cases second with
      | error one other =>
        obtain ⟨node, member, refused⟩ := one
        exact .error ⟨node, List.mem_append_right _ member, refused⟩ other

theorem Decides.map {f : α → β} (decides : Decides names nodes x) : Decides names nodes (x >>= fun a => .ok (f a)) := by
  cases decides with
  | ok all => exact .ok all
  | error one other => exact .error one other

theorem Decides.cons {e : Expr} (inside : Decides names nodes x) (own : names.Admits e) : Decides names (e :: nodes) x := by
  cases inside with
  | ok all => exact .ok (List.forall_mem_cons.mpr ⟨own, all⟩)
  | error one other =>
    obtain ⟨node, member, refused⟩ := one
    exact .error ⟨node, List.mem_cons_of_mem _ member, refused⟩ other

theorem Decides.head {e : Expr} {fault : CompileFault} (own : ¬ names.Admits e) (other : ∀ chain, fault ≠ .recursion chain) :
    Decides names (e :: nodes) (.error fault : Except CompileFault α) :=
  .error ⟨e, List.mem_cons_self, own⟩ other

theorem Decides.perm (decides : Decides names nodes x) (same : nodes.Perm rest) : Decides names rest x := by
  cases decides with
  | ok all => exact .ok fun node member => all node (same.mem_iff.mpr member)
  | error one other =>
    obtain ⟨node, member, refused⟩ := one
    exact .error ⟨node, same.mem_iff.mp member, refused⟩ other

end

-- What is computed beforehand is made of constants and operators, so nothing is passed over unseen.
theorem fold_admits (names : Names) (e : Expr) (v : Float) (folded : e.fold = some v) :
    ∀ node ∈ e.nodes, names.Admits node := by
  cases e with
  | const => simp [Expr.nodes, Names.Admits]
  | param | var | thread | extent | index | call => cases folded
  | unary op input =>
    obtain ⟨a, one, _⟩ := Option.bind_eq_some_iff.mp folded
    exact List.forall_mem_cons.mpr ⟨trivial, fold_admits names input a one⟩
  | binary op left right =>
    obtain ⟨a, one, folded⟩ := Option.bind_eq_some_iff.mp folded
    obtain ⟨b, two, _⟩ := Option.bind_eq_some_iff.mp folded
    exact List.forall_mem_cons.mpr ⟨trivial,
      List.forall_mem_append.mpr ⟨fold_admits names left a one, fold_admits names right b two⟩⟩
  | select cond yes no =>
    obtain ⟨c, test, folded⟩ := Option.bind_eq_some_iff.mp folded
    obtain ⟨a, one, folded⟩ := Option.bind_eq_some_iff.mp folded
    obtain ⟨b, two, _⟩ := Option.bind_eq_some_iff.mp folded
    exact List.forall_mem_cons.mpr ⟨trivial, List.forall_mem_append.mpr
      ⟨List.forall_mem_append.mpr ⟨fold_admits names cond c test, fold_admits names yes a one⟩, fold_admits names no b two⟩⟩

mutual

theorem lower_decides (names : Names) (e : Expr) : Decides names e.nodes (lower names e) := by
  cases e with
  | const | var | thread | extent => exact .ok (by simp [Expr.nodes, Names.Admits])
  | param index =>
    rw [lower, Expr.nodes]
    split
    · rename_i array
      exact .head (by simp [Names.Admits, array]) (by simp)
    · rename_i number
      exact .ok (by simpa [Names.Admits] using number)
  | index param indices =>
    rw [lower, Expr.nodes]
    split
    · rename_i unbound
      exact .head (by simp [Names.Admits, unbound]) (by simp)
    · rename_i slot bound
      exact (lowerAll_decides names indices).map.cons (by simp [Names.Admits, bound])
  | unary op input =>
    rw [lower]
    split
    · rename_i v folded
      exact .ok (fold_admits names _ v folded)
    · exact (lower_decides names input).map.cons trivial
  | binary op left right =>
    rw [lower]
    split
    · rename_i v folded
      exact .ok (fold_admits names _ v folded)
    · exact ((lower_decides names left).bind fun a => (lower_decides names right).map).cons trivial
  | select cond yes no =>
    rw [lower]
    split
    · rename_i v folded
      exact .ok (fold_admits names _ v folded)
    · refine Decides.cons (Decides.perm ((lower_decides names no).bind fun n =>
        (lower_decides names yes).bind fun y => (lower_decides names cond).map) ?_) trivial
      exact List.perm_append_comm.trans (List.Perm.append_right _ List.perm_append_comm)
  | call name args =>
    rw [lower, Expr.nodes]
    split
    · rename_i unknown
      exact .head (by simp [Names.Admits, unknown]) (by simp)
    · rename_i callee known
      split
      · rename_i different
        exact .head (by simpa [Names.Admits, known] using different) (by simp)
      · rename_i same
        have fits : callee.paramTypes.length = args.length := Decidable.not_not.mp same
        exact (lowerArgs_decides names callee.paramTypes args fits).map.cons ⟨callee, known, fits⟩

theorem lowerAll_decides (names : Names) (es : List Expr) : Decides names (Expr.nodesOf es) (lowerAll names es) := by
  cases es with
  | nil => exact .ok (by simp [Expr.nodesOf])
  | cons e es =>
    rw [lowerAll, Expr.nodesOf]
    exact (lower_decides names e).bind fun t => (lowerAll_decides names es).map

-- Arguments beyond the parameters would not be looked at.
theorem lowerArgs_decides (names : Names) (types : List ValueType) (es : List Expr) (fits : types.length = es.length) :
    Decides names (Expr.nodesOf es) (lowerArgs names types es) := by
  cases es with
  | nil =>
    rw [List.length_eq_zero_iff.mp fits]
    exact .ok (by simp [Expr.nodesOf])
  | cons e es =>
    cases types with
    | nil => cases fits
    | cons type types =>
      rw [lowerArgs, Expr.nodesOf]
      exact (lower_decides names e).bind fun t => (lowerArgs_decides names types es (Nat.succ.inj fits)).map

end

mutual

theorem lowerStmt_decides (names : Names) (stmt : Stmt) : Decides names stmt.nodes (lowerStmt names stmt) := by
  cases stmt with
  | declare _ e | assign _ e | ret e => exact (lower_decides names e).map
  | loop counter start stop body =>
    rw [lowerStmt, Stmt.nodes, List.append_assoc]
    exact (lower_decides names start).bind fun first => (lower_decides names stop).bind fun bound =>
      (lowerBlock_decides names body).map
  | branch cond yes no =>
    rw [lowerStmt, Stmt.nodes, List.append_assoc]
    exact (lower_decides names cond).bind fun c => (lowerBlock_decides names yes).bind fun y =>
      (lowerBlock_decides names no).map

theorem lowerBlock_decides (names : Names) (stmts : List Stmt) :
    Decides names (Stmt.nodesOf stmts) (lowerBlock names stmts) := by
  cases stmts with
  | nil => exact .ok (by simp [Stmt.nodesOf])
  | cons stmt rest =>
    rw [lowerBlock, Stmt.nodesOf]
    exact (lowerStmt_decides names stmt).bind fun command => (lowerBlock_decides names rest).map

end

theorem Names.isArray_iff {names : Names} {index : Nat} :
    names.isArray index = true ↔ names.types[index]? = some .floatArray := by
  unfold isArray
  split
  · rename_i type found
    simp [found, ValueType.isArray]
  · rename_i absent
    simp [absent]

-- The nodes of a checked body: apart from its calls, everything has a form.
theorem admits_iff {types : List ValueType} {nodes : List Expr} {lookup : String → Option Definition}
    {slot? : Nat → Option Nat} (handles : Handles types [] nodes) (closed : HasArgs nodes)
    (slots : ∀ param, types[param]? = some .floatArray → (slot? param).isSome = true) :
    (∀ node ∈ nodes, Names.Admits ⟨lookup, types, slot?⟩ node) ↔
      ∀ name args, .call name args ∈ nodes →
        (∃ callee, lookup name = some callee ∧ callee.paramTypes.length = args.length) ∧
          ∀ param, types[param]? = some .floatArray → .param param ∉ args := by
  constructor
  · intro all name args call
    refine ⟨all _ call, fun param array given => ?_⟩
    have number : Names.isArray ⟨lookup, types, slot?⟩ param = false := all _ (closed name args call given)
    rw [Names.isArray_iff.mpr array] at number
    cases number
  · intro calls node member
    cases node with
    | param index =>
      refine Bool.eq_false_iff.mpr fun array => ?_
      have typed := Names.isArray_iff.mp array
      obtain ⟨name, args, call, given⟩ := (handles.whole index member typed).resolve_left (by simp)
      exact (calls name args call).2 index typed given
    | index param indices => exact slots param (handles.indexed param indices member)
    | call name args => exact (calls name args member).1
    | const | var | thread | extent | unary | binary | select => trivial

theorem slot_of_array {types : List ValueType} {param : Nat} (array : types[param]? = some .floatArray) :
    ((positions ValueType.isArray types).idxOf? param).isSome = true := by
  have member : param ∈ positions ValueType.isArray types := by
    refine List.mem_map.mpr ⟨(.floatArray, param), List.mem_filter.mpr ⟨?_, rfl⟩, rfl⟩
    exact List.mem_zipIdx_iff_getElem?.mpr array
  rw [List.isSome_idxOf?]
  exact member

end Shader

namespace Snapshot

theorem unsupported?_iff (s : Snapshot) :
    s.unsupported? = none ↔ ∀ d ∈ s.functions, d.body.isNative = false ∧ ∀ type ∈ d.paramTypes, type.isArray = false := by
  unfold unsupported?
  rw [List.findSome?_eq_none_iff]
  refine forall₂_congr fun d _ => ?_
  cases d.body.isNative <;> simp

theorem checkDevice_iff (s : Snapshot) :
    s.checkDevice = .ok () ↔ s.missing = [] ∧ s.unsupported? = none ∧ s.Acyclic := by
  unfold checkDevice
  rw [← checkAcyclic_iff]
  split
  · rename_i missing
    have some : s.missing ≠ [] := by simpa using missing
    simp [some]
  · rename_i known
    have none : s.missing = [] := by simpa using known
    split
    · rename_i supported
      simp [supported]
    · rename_i supported
      simp [none, supported]

theorem checkDevice_recursion {s : Snapshot} {chain : List String} (refused : s.checkDevice = .error (.recursion chain)) :
    s.Closes chain := by
  unfold checkDevice at refused
  split at refused
  · cases refused
  · split at refused
    · rename_i fault found
      cases refused
      obtain ⟨d, _, reason⟩ := List.exists_of_findSome?_eq_some found
      split at reason
      · cases reason
      · split at reason <;> cases reason
    · obtain ⟨names, same, closes⟩ := checkAcyclic_error refused
      cases same
      exact closes

end Snapshot

namespace Registry

def Calls (r : Registry) (caller callee : String) : Prop := ∃ d, r.get? caller = some d ∧ callee ∈ d.body.calls

variable {r : Registry} {roots : List String}

theorem Reaches.step {caller callee : String} (reached : r.Reaches roots caller) (calls : r.Calls caller callee) :
    r.Reaches roots callee := by
  obtain ⟨d, known, called⟩ := calls
  exact .call reached known called

theorem snapshot_calls {caller callee : String} :
    (r.snapshot roots).Calls caller callee ↔ r.Reaches roots caller ∧ r.Calls caller callee := by
  unfold Snapshot.Calls Snapshot.callsOf
  constructor
  · intro calls
    split at calls
    · rename_i d found
      obtain ⟨known, reached⟩ := snapshot_get?.mp found
      exact ⟨reached, d, known, calls⟩
    · cases calls
  · rintro ⟨reached, d, known, calls⟩
    rw [snapshot_get?.mpr ⟨known, reached⟩]
    exact calls

theorem snapshot_transGen {first last : String} (reached : r.Reaches roots first)
    (path : Relation.TransGen r.Calls first last) :
    r.Reaches roots last ∧ Relation.TransGen (r.snapshot roots).Calls first last := by
  induction path with
  | single calls => exact ⟨reached.step calls, .single (snapshot_calls.mpr ⟨reached, calls⟩)⟩
  | tail _ calls ih => exact ⟨ih.1.step calls, ih.2.tail (snapshot_calls.mpr ⟨ih.1, calls⟩)⟩

theorem snapshot_acyclic :
    (r.snapshot roots).Acyclic ↔ ∀ name, r.Reaches roots name → ¬ Relation.TransGen r.Calls name name := by
  constructor
  · intro acyclic name reached cycle
    exact acyclic name (snapshot_transGen reached cycle).2
  · intro acyclic name cycle
    obtain ⟨callee, first, _⟩ := Relation.TransGen.head'_iff.mp cycle
    exact acyclic name (snapshot_calls.mp first).1 (cycle.lift id fun _ _ calls => (snapshot_calls.mp calls).2)

theorem snapshot_closes {chain : List String} (closes : (r.snapshot roots).Closes chain) :
    chain.IsChain r.Calls ∧ ∃ path last, chain = path ++ [last] ∧ last ∈ path :=
  ⟨closes.1.imp fun _ _ calls => (snapshot_calls.mp calls).2, closes.2⟩

theorem snapshot_missing_nil :
    (r.snapshot roots).missing = [] ↔ ∀ name, r.Reaches roots name → ∃ d, r.get? name = some d := by
  constructor
  · intro none name reached
    cases known : r.get? name with
    | some d => exact ⟨d, rfl⟩
    | none =>
      have noted := (r.mem_snapshot_missing roots name).mpr ⟨known, reached⟩
      rw [none] at noted
      cases noted
  · intro all
    refine List.eq_nil_iff_forall_not_mem.mpr fun name noted => ?_
    obtain ⟨unknown, reached⟩ := (r.mem_snapshot_missing roots name).mp noted
    obtain ⟨d, known⟩ := all name reached
    cases unknown.symm.trans known

theorem snapshot_supported :
    (r.snapshot roots).unsupported? = none ↔ ∀ name d, r.Reaches roots name → r.get? name = some d →
      d.body.isNative = false ∧ .floatArray ∉ d.paramTypes := by
  have numbers (d : Definition) : (∀ type ∈ d.paramTypes, type.isArray = false) ↔ .floatArray ∉ d.paramTypes := by
    constructor
    · intro all array
      cases all _ array
    · intro none type member
      cases type with
      | float | int => rfl
      | floatArray => exact absurd member none
  rw [Snapshot.unsupported?_iff]
  constructor
  · intro all name d reached known
    obtain rfl := (r.get?_mem name d known).2
    obtain ⟨body, types⟩ := all d ((r.mem_snapshot_functions roots d).mpr ⟨known, reached⟩)
    exact ⟨body, (numbers d).mp types⟩
  · intro all d member
    obtain ⟨known, reached⟩ := (r.mem_snapshot_functions roots d).mp member
    exact ⟨(all d.name d reached known).1, (numbers d).mpr (all d.name d reached known).2⟩

def Fits (r : Registry) (body : Body) : Prop :=
  ∀ name args, .call name args ∈ body.nodes → ∀ d, r.get? name = some d → d.paramTypes.length = args.length

-- A kernel that the device has a form for, by the helpers it reaches.
structure Expressible (r : Registry) (body : Body) (types : List ValueType) : Prop where
  known : ∀ name, r.Reaches body.calls name → ∃ d, r.get? name = some d
  bodies : ∀ name d, r.Reaches body.calls name → r.get? name = some d → d.body.isNative = false
  numbers : ∀ name d, r.Reaches body.calls name → r.get? name = some d → .floatArray ∉ d.paramTypes
  acyclic : ∀ name, r.Reaches body.calls name → ¬ Relation.TransGen r.Calls name name
  fits : r.Fits body
  helpersFit : ∀ name d own, r.Reaches body.calls name → r.get? name = some d → d.body = .kernel own → r.Fits own
  scalars : ∀ name args, .call name args ∈ body.nodes → ∀ param, types[param]? = some .floatArray → .param param ∉ args

theorem fits_iff {own : Body} (reached : ∀ name ∈ own.calls, r.Reaches roots name)
    (known : ∀ name, r.Reaches roots name → ∃ d, r.get? name = some d) :
    (∀ name args, .call name args ∈ own.nodes →
      ∃ callee, (r.snapshot roots).get? name = some callee ∧ callee.paramTypes.length = args.length) ↔ r.Fits own := by
  constructor
  · intro all name args call d own
    obtain ⟨callee, found, fits⟩ := all name args call
    cases own.symm.trans (snapshot_get?.mp found).1
    exact fits
  · intro fits name args call
    have within := reached name (Body.mem_calls.mpr ⟨args, call⟩)
    obtain ⟨d, own⟩ := known name within
    exact ⟨d, snapshot_get?.mpr ⟨own, within⟩, fits name args call d own⟩

end Registry

namespace Shader

theorem build_ok_iff (r : Request) :
    (∃ p, build r = .ok p) ↔ r.functions.checkDevice = .ok () ∧
      (∀ d ∈ r.functions.functions, ∃ out, lowerHelper r.functions d = .ok out) ∧
      ∃ commands, lowerBlock ⟨r.functions.get?, r.types, (positions ValueType.isArray r.types).idxOf?⟩ r.body.stmts =
        .ok commands := by
  rw [← mapM_ok_iff]
  constructor
  · rintro ⟨p, built⟩
    unfold build at built
    obtain ⟨_, device, built⟩ := bind_eq_ok built
    obtain ⟨lowered, helpers, built⟩ := bind_eq_ok built
    obtain ⟨commands, block, _⟩ := bind_eq_ok built
    exact ⟨device, ⟨lowered, helpers⟩, commands, block⟩
  · rintro ⟨device, ⟨lowered, helpers⟩, commands, block⟩
    unfold build
    rw [device, helpers]
    change ∃ p, (lowerBlock ⟨r.functions.get?, r.types, (positions ValueType.isArray r.types).idxOf?⟩ r.body.stmts >>= _) = .ok p
    rw [block]
    exact ⟨_, rfl⟩

theorem Decides.not_recursion {names : Names} {nodes : List Expr} {α : Type} {x : Except CompileFault α}
    (decides : Decides names nodes x) (chain : List String) : x ≠ .error (.recursion chain) := by
  rintro rfl
  cases decides with
  | error _ other => exact other chain rfl

theorem lowerHelper_decides (functions : Snapshot) {d : Definition} {own : Body} (kernel : d.body = .kernel own) :
    Decides ⟨functions.get?, d.paramTypes, fun _ => none⟩ own.nodes (lowerHelper functions d) := by
  unfold lowerHelper
  rw [kernel]
  exact (lowerBlock_decides _ own.stmts).map

theorem build_recursion {r : Request} {chain : List String} (refused : build r = .error (.recursion chain)) :
    r.functions.Closes chain := by
  unfold build at refused
  rcases bind_eq_error refused with device | ⟨_, _, refused⟩
  · exact Snapshot.checkDevice_recursion device
  rcases bind_eq_error refused with helpers | ⟨_, _, refused⟩
  · obtain ⟨d, _, failed⟩ := mapM_eq_error helpers
    cases kernel : d.body with
    | kernel own => exact absurd failed ((lowerHelper_decides _ kernel).not_recursion chain)
    | native arity apply =>
      unfold lowerHelper at failed
      rw [kernel] at failed
      cases failed
  rcases bind_eq_error refused with block | ⟨_, _, last⟩
  · exact absurd block ((lowerBlock_decides _ _).not_recursion chain)
  · cases last

section
variable {r : Registry} {body : Body} (known : ∀ name, r.Reaches body.calls name → ∃ d, r.get? name = some d)

include known

theorem lowerBody_iff {types : List ValueType} (valid : body.validate types = .ok ()) :
    (∃ commands, lowerBlock ⟨(r.snapshot body.calls).get?, types, (positions ValueType.isArray types).idxOf?⟩ body.stmts =
      .ok commands) ↔
      r.Fits body ∧ ∀ name args, .call name args ∈ body.nodes →
        ∀ param, types[param]? = some .floatArray → .param param ∉ args := by
  rw [(lowerBlock_decides _ _).ok_iff]
  refine (admits_iff (Body.validate_handles valid) (Stmt.nodesOf_hasArgs body.stmts) fun _ => slot_of_array).trans ?_
  rw [← Registry.fits_iff (fun name member => .root member) known]
  exact ⟨fun both => ⟨fun name args call => (both name args call).1, fun name args call => (both name args call).2⟩,
    fun both name args call => ⟨both.1 name args call, both.2 name args call⟩⟩

theorem lowerHelper_iff {d : Definition} {own : Body} (reached : r.Reaches body.calls d.name) (here : r.get? d.name = some d)
    (kernel : d.body = .kernel own) (valid : d.validate = .ok ()) (numbers : .floatArray ∉ d.paramTypes) :
    (∃ out, lowerHelper (r.snapshot body.calls) d = .ok out) ↔ r.Fits own := by
  rw [(lowerHelper_decides _ kernel).ok_iff]
  have none (param : Nat) : d.paramTypes[param]? ≠ some .floatArray := fun array => numbers (List.mem_of_getElem? array)
  refine (admits_iff (Body.validate_handles (Definition.validate_body valid kernel)) (Stmt.nodesOf_hasArgs own.stmts)
    fun param array => absurd array (none param)).trans ?_
  rw [← Registry.fits_iff (fun name member => reached.step ⟨d, here, by rwa [kernel]⟩) known]
  exact ⟨fun both name args call => (both name args call).1,
    fun fits name args call => ⟨fits name args call, fun param array => absurd array (none param)⟩⟩

end

theorem build_iff_expressible {r : Registry} (valid : r.Valid) {body : Body} {types : List ValueType}
    (checked : body.validate types = .ok ()) (grid : Grid) :
    (∃ p, build ⟨body, types, grid, r.snapshot body.calls⟩ = .ok p) ↔ r.Expressible body types := by
  rw [build_ok_iff, Snapshot.checkDevice_iff]
  constructor
  · rintro ⟨⟨missing, supported, acyclic⟩, helpers, block⟩
    have known := Registry.snapshot_missing_nil.mp missing
    have forms := Registry.snapshot_supported.mp supported
    obtain ⟨fits, scalars⟩ := (lowerBody_iff known checked).mp block
    refine ⟨known, fun name d reached here => (forms name d reached here).1, fun name d reached here =>
      (forms name d reached here).2, Registry.snapshot_acyclic.mp acyclic, fits, ?_, scalars⟩
    intro name d own reached here kernel
    obtain ⟨member, rfl⟩ := r.get?_mem name d here
    exact (lowerHelper_iff known reached here kernel (valid.checked d member) (forms d.name d reached here).2).mp
      (helpers d ((r.mem_snapshot_functions body.calls d).mpr ⟨here, reached⟩))
  · intro expressible
    have supported := Registry.snapshot_supported.mpr fun name d reached here =>
      ⟨expressible.bodies name d reached here, expressible.numbers name d reached here⟩
    refine ⟨⟨Registry.snapshot_missing_nil.mpr expressible.known, supported,
      Registry.snapshot_acyclic.mpr expressible.acyclic⟩, ?_,
      (lowerBody_iff expressible.known checked).mpr ⟨expressible.fits, expressible.scalars⟩⟩
    intro d listed
    obtain ⟨here, reached⟩ := (r.mem_snapshot_functions body.calls d).mp listed
    cases kernel : d.body with
    | kernel own =>
      exact (lowerHelper_iff expressible.known reached here kernel (valid.checked d (r.get?_mem _ d here).1)
        (expressible.numbers d.name d reached here)).mpr (expressible.helpersFit d.name d own reached here kernel)
    | native arity apply =>
      have body := expressible.bodies d.name d reached here
      rw [kernel] at body
      cases body

end Shader

theorem generator_accepts_expressible_kernels (registry : Registry) (reached : registry.Reached) (body : Body)
    (types : List ValueType) (valid : body.validate types = .ok ()) (grid : Grid) :
    ((∃ source, Shader.generate ⟨body, types, grid, registry.snapshot body.calls⟩ = .ok source) ↔
      registry.Expressible body types) ∧
    ∀ e, Shader.generate ⟨body, types, grid, registry.snapshot body.calls⟩ = .error e →
      ∃ cause, e = .compilationFailed cause ∧
        -- A reported recursion is a path of calls that comes back to one of its names.
        ∀ chain, cause = .recursion chain →
          chain.IsChain registry.Calls ∧ ∃ path last, chain = path ++ [last] ∧ last ∈ path := by
  rw [← Shader.build_iff_expressible (Registry.reached_valid reached) valid grid]
  refine ⟨⟨?_, ?_⟩, ?_⟩
  · rintro ⟨source, generated⟩
    obtain ⟨program, built, _⟩ := bind_eq_ok (mapError_eq_ok generated)
    exact ⟨program, built⟩
  · rintro ⟨program, built⟩
    rw [Shader.generate, Shader.synthesize, built]
    exact ⟨_, rfl⟩
  · intro e refused
    obtain ⟨cause, failed, rfl⟩ := mapError_eq_error refused
    refine ⟨cause, rfl, ?_⟩
    rintro chain rfl
    rcases bind_eq_error failed with built | ⟨_, _, last⟩
    · exact Registry.snapshot_closes (Shader.build_recursion built)
    · cases last

-- Two helpers that share a third one, and two that call each other.
def halfOf (name callee : String) : Definition :=
  .make name (.kernel ⟨[⟨"x", none⟩], 0, [.ret (.binary .mul (.ofFloat 0.5) (.call callee [.param 0]))]⟩) none none

def tangled : Registry :=
  ((((Registry.new false).store (halfOf "left" "clamp01")).store (halfOf "right" "clamp01")).store
    (halfOf "ping" "pong")).store (halfOf "pong" "ping")

def sharingBody : Body := ⟨[], 0, [.ret (.binary .add (.call "left" [.thread .x]) (.call "right" [.thread .y]))]⟩

def circlingBody : Body := ⟨[], 0, [.ret (.call "pong" [.thread .x])]⟩

theorem Registry.Reached.add {r : Registry} (reached : r.Reached) {d : Definition} (valid : d.validate = .ok ())
    (new : r.get? d.name = none) : (r.store d).Reached := by
  have accepted : r.register d = (r.store d, .ok .added) := by
    unfold Registry.register
    rw [valid, new]
  exact .register reached accepted

theorem tangled_reached : tangled.Reached := by
  refine ((((Registry.Reached.new false).add ?_ ?_).add ?_ ?_).add ?_ ?_).add ?_ ?_ <;> rfl

theorem sharing_snapshot : tangled.snapshot sharingBody.calls =
    ⟨[⟨"clamp01", [.float], .float, .kernel (Builtin.ofParams ["x"] Builtin.clamp01), 6, true⟩,
      { halfOf "left" "clamp01" with generation := 8 }, { halfOf "right" "clamp01" with generation := 9 }], []⟩ := by
  have calls : sharingBody.calls = ["left", "right"] := by decide +kernel
  have left : (halfOf "left" "clamp01").body.calls = ["clamp01"] := by decide +kernel
  have right : (halfOf "right" "clamp01").body.calls = ["clamp01"] := by decide +kernel
  have none : (Builtin.ofParams ["x"] Builtin.clamp01).calls = [] := by decide +kernel
  rw [calls, Registry.snapshot,
    Registry.close_known tangled _ "left" _ { halfOf "left" "clamp01" with generation := 8 } rfl rfl]
  rw [left, List.cons_append, Registry.close_known tangled _ "clamp01" _
    ⟨"clamp01", [.float], .float, .kernel (Builtin.ofParams ["x"] Builtin.clamp01), 6, true⟩ (by decide +kernel) rfl]
  rw [FunctionBody.calls, none, List.nil_append, List.nil_append,
    Registry.close_known tangled _ "right" _ { halfOf "right" "clamp01" with generation := 9 } (by decide +kernel) rfl]
  rw [right, List.append_nil, Registry.close_taken tangled _ "clamp01" _ (by decide +kernel), Registry.close]
  rfl

theorem circling_snapshot : tangled.snapshot circlingBody.calls =
    ⟨[{ halfOf "ping" "pong" with generation := 10 }, { halfOf "pong" "ping" with generation := 11 }], []⟩ := by
  have calls : circlingBody.calls = ["pong"] := by decide +kernel
  have pong : (halfOf "pong" "ping").body.calls = ["ping"] := by decide +kernel
  have ping : (halfOf "ping" "pong").body.calls = ["pong"] := by decide +kernel
  rw [calls, Registry.snapshot,
    Registry.close_known tangled _ "pong" _ { halfOf "pong" "ping" with generation := 11 } rfl rfl]
  rw [pong, List.append_nil,
    Registry.close_known tangled _ "ping" _ { halfOf "ping" "pong" with generation := 10 } (by decide +kernel) rfl]
  rw [ping, List.append_nil, Registry.close_taken tangled _ "pong" _ (by decide +kernel), Registry.close]
  rfl

def tangledGrid : Grid := ⟨[5], by decide, by decide, by decide⟩

theorem sharing_accepted_circling_refused :
    (tangled.Expressible sharingBody [] ∧
      ∃ source, Shader.generate ⟨sharingBody, [], tangledGrid, tangled.snapshot sharingBody.calls⟩ = .ok source) ∧
    ¬ tangled.Expressible circlingBody [] ∧
      Shader.generate ⟨circlingBody, [], tangledGrid, tangled.snapshot circlingBody.calls⟩ =
        .error (.compilationFailed (.recursion ["ping", "pong", "ping"])) ∧
      ["ping", "pong", "ping"].IsChain tangled.Calls := by
  obtain ⟨sharing, _⟩ := generator_accepts_expressible_kernels tangled tangled_reached sharingBody [] (by decide +kernel)
    tangledGrid
  obtain ⟨circling, refusals⟩ := generator_accepts_expressible_kernels tangled tangled_reached circlingBody []
    (by decide +kernel) tangledGrid
  have accepted : ∃ source,
      Shader.generate ⟨sharingBody, [], tangledGrid, tangled.snapshot sharingBody.calls⟩ = .ok source := by
    rw [sharing_snapshot]
    exact ⟨_, rfl⟩
  have refused : Shader.generate ⟨circlingBody, [], tangledGrid, tangled.snapshot circlingBody.calls⟩ =
      .error (.compilationFailed (.recursion ["ping", "pong", "ping"])) := by
    rw [circling_snapshot]
    rfl
  refine ⟨⟨sharing.mp accepted, accepted⟩, fun expressible => ?_, refused, ?_⟩
  · obtain ⟨source, generated⟩ := circling.mpr expressible
    cases refused.symm.trans generated
  · obtain ⟨_, same, real⟩ := refusals _ refused
    cases same
    exact (real _ rfl).1

end GridKernel
