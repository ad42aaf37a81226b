import GridKernel.Kernel.Identity

namespace GridKernel

theorem ValueType.rank_inj (a b : ValueType) (same : a.rank = b.rank) : a = b := by
  cases a <;> cases b <;> simp_all [ValueType.rank]

theorem Axis.rank_inj (a b : Axis) (same : a.rank = b.rank) : a = b := by
  cases a <;> cases b <;> simp_all [Axis.rank]

theorem UnaryOp.rank_inj (a b : UnaryOp) (same : a.rank = b.rank) : a = b := by
  rw [← UnaryOp.ofNat_ctorIdx a, ← UnaryOp.ofNat_ctorIdx b]
  exact congrArg UnaryOp.ofNat same

theorem BinaryOp.rank_inj (a b : BinaryOp) (same : a.rank = b.rank) : a = b := by
  rw [← BinaryOp.ofNat_ctorIdx a, ← BinaryOp.ofNat_ctorIdx b]
  exact congrArg BinaryOp.ofNat same

theorem Double.bits_inj (a b : Double) (same : a.bits = b.bits) : a = b := by
  cases a; cases b; cases same; rfl

-- A way to write tokens down, one after the other. It need not tell a size from a tag.
structure Code (α : Type) where
  write : Token → List α
  holds : Token → Prop
  readable : ∀ s t x y, s.ctorIdx = t.ctorIdx → holds s → holds t → write s ++ x = write t ++ y → s = t ∧ x = y

namespace Code

variable {α : Type} (c : Code α)

def text (stream : List Token) : List α := stream.flatMap c.write

def Holds (stream : List Token) : Prop := ∀ t ∈ stream, c.holds t

-- Two streams, each with something behind it, are written alike.
structure Alike (s t : List Token) (x y : List α) : Prop where
  left : c.Holds s
  right : c.Holds t
  same : c.text s ++ x = c.text t ++ y

variable {c} {s t : List Token} {x y : List α}

theorem Alike.next {a b : Token} (alike : c.Alike (a :: s) (b :: t) x y) (kind : a.ctorIdx = b.ctorIdx) :
    a = b ∧ c.Alike s t x y := by
  obtain ⟨left, right, same⟩ := alike
  obtain ⟨first, left⟩ := List.forall_mem_cons.mp left
  obtain ⟨second, right⟩ := List.forall_mem_cons.mp right
  simp only [text, List.flatMap_cons, List.append_assoc] at same
  obtain ⟨token, rest⟩ := c.readable a b _ _ kind first second same
  exact ⟨token, left, right, rest⟩

theorem Alike.tag {m n : Nat} (alike : c.Alike (.tag m :: s) (.tag n :: t) x y) : m = n ∧ c.Alike s t x y :=
  (alike.next rfl).imp_left Token.tag.inj

theorem Alike.size {m n : Nat} (alike : c.Alike (.size m :: s) (.size n :: t) x y) : m = n ∧ c.Alike s t x y :=
  (alike.next rfl).imp_left Token.size.inj

theorem Alike.bits {a b : UInt64} (alike : c.Alike (.bits a :: s) (.bits b :: t) x y) : a = b ∧ c.Alike s t x y :=
  (alike.next rfl).imp_left Token.bits.inj

theorem Alike.name {f g : String} (alike : c.Alike (.name f :: s) (.name g :: t) x y) : f = g ∧ c.Alike s t x y :=
  (alike.next rfl).imp_left Token.name.inj

def tokens : Code Token where
  write t := [t]
  holds _ := True
  readable _ _ _ _ _ _ _ same := List.cons.inj same

theorem text_tokens (stream : List Token) : tokens.text stream = stream := List.flatMap_singleton' stream

theorem alike_tokens {x y : List Token} : tokens.Alike s t x y ↔ s ++ x = t ++ y := by
  constructor
  · intro alike
    have same := alike.same
    rwa [text_tokens, text_tokens] at same
  · intro same
    refine ⟨fun _ _ => trivial, fun _ _ => trivial, ?_⟩
    rwa [text_tokens, text_tokens]

end Code

variable {α : Type} {c : Code α} {x y : List α}

namespace Expr

-- The tag fixes the constructor, and what follows it is read off from the left. Lists have
-- no end mark, so two of them are compared only once their lengths agree.
mutual

theorem stream_readable (a b : Expr) (s t : List Token) (alike : c.Alike (a.stream ++ s) (b.stream ++ t) x y) :
    a = b ∧ c.Alike s t x y := by
  cases a with
  | const v =>
    cases b <;> obtain ⟨tag, rest⟩ := alike.tag <;> cases tag
    obtain ⟨bits, next⟩ := rest.bits
    exact ⟨congrArg const (Double.bits_inj _ _ bits), next⟩
  | param i =>
    cases b <;> obtain ⟨tag, rest⟩ := alike.tag <;> cases tag
    obtain ⟨rfl, next⟩ := rest.size
    exact ⟨rfl, next⟩
  | var slot =>
    cases b <;> obtain ⟨tag, rest⟩ := alike.tag <;> cases tag
    obtain ⟨rfl, next⟩ := rest.size
    exact ⟨rfl, next⟩
  | thread axis =>
    cases b <;> obtain ⟨tag, rest⟩ := alike.tag <;> cases tag
    obtain ⟨rank, next⟩ := rest.tag
    exact ⟨congrArg thread (Axis.rank_inj _ _ rank), next⟩
  | extent axis =>
    cases b <;> obtain ⟨tag, rest⟩ := alike.tag <;> cases tag
    obtain ⟨rank, next⟩ := rest.tag
    exact ⟨congrArg extent (Axis.rank_inj _ _ rank), next⟩
  | index p es =>
    cases b <;> obtain ⟨tag, rest⟩ := alike.tag <;> cases tag
    obtain ⟨rfl, next⟩ := rest.size
    obtain ⟨length, tail⟩ := next.size
    obtain ⟨rfl, more⟩ := streamOf_readable _ _ _ _ length tail
    exact ⟨rfl, more⟩
  | unary op e =>
    cases b <;> obtain ⟨tag, rest⟩ := alike.tag <;> cases tag
    obtain ⟨rank, next⟩ := rest.tag
    cases UnaryOp.rank_inj _ _ rank
    obtain ⟨rfl, tail⟩ := stream_readable _ _ _ _ next
    exact ⟨rfl, tail⟩
  | binary op l r =>
    cases b <;> simp only [stream, List.cons_append, List.append_assoc] at alike <;> obtain ⟨tag, rest⟩ := alike.tag <;> cases tag
    obtain ⟨rank, next⟩ := rest.tag
    cases BinaryOp.rank_inj _ _ rank
    obtain ⟨rfl, tail⟩ := stream_readable _ _ _ _ next
    obtain ⟨rfl, more⟩ := stream_readable _ _ _ _ tail
    exact ⟨rfl, more⟩
  | select p q r =>
    cases b <;> simp only [stream, List.cons_append, List.append_assoc] at alike <;> obtain ⟨tag, rest⟩ := alike.tag <;> cases tag
    obtain ⟨rfl, next⟩ := stream_readable _ _ _ _ rest
    obtain ⟨rfl, tail⟩ := stream_readable _ _ _ _ next
    obtain ⟨rfl, more⟩ := stream_readable _ _ _ _ tail
    exact ⟨rfl, more⟩
  | call f es =>
    cases b <;> obtain ⟨tag, rest⟩ := alike.tag <;> cases tag
    obtain ⟨rfl, next⟩ := rest.name
    obtain ⟨length, tail⟩ := next.size
    obtain ⟨rfl, more⟩ := streamOf_readable _ _ _ _ length tail
    exact ⟨rfl, more⟩

theorem streamOf_readable (as bs : List Expr) (s t : List Token) (length : as.length = bs.length)
    (alike : c.Alike (streamOf as ++ s) (streamOf bs ++ t) x y) : as = bs ∧ c.Alike s t x y := by
  cases as with
  | nil =>
    cases bs with
    | nil => exact ⟨rfl, alike⟩
    | cons => cases length
  | cons a as =>
    cases bs with
    | nil => cases length
    | cons b bs =>
      simp only [streamOf, List.append_assoc] at alike
      obtain ⟨rfl, rest⟩ := stream_readable _ _ _ _ alike
      obtain ⟨rfl, next⟩ := streamOf_readable _ _ _ _ (by simpa using length) rest
      exact ⟨rfl, next⟩

end

end Expr

namespace Stmt

mutual

theorem stream_readable (a b : Stmt) (s t : List Token) (alike : c.Alike (a.stream ++ s) (b.stream ++ t) x y) :
    a = b ∧ c.Alike s t x y := by
  cases a with
  | declare slot e =>
    cases b <;> obtain ⟨tag, rest⟩ := alike.tag <;> cases tag
    obtain ⟨rfl, next⟩ := rest.size
    obtain ⟨rfl, tail⟩ := Expr.stream_readable _ _ _ _ next
    exact ⟨rfl, tail⟩
  | assign slot e =>
    cases b <;> obtain ⟨tag, rest⟩ := alike.tag <;> cases tag
    obtain ⟨rfl, next⟩ := rest.size
    obtain ⟨rfl, tail⟩ := Expr.stream_readable _ _ _ _ next
    exact ⟨rfl, tail⟩
  | loop counter start stop body =>
    cases b <;> simp only [stream, List.cons_append, List.append_assoc] at alike <;> obtain ⟨tag, rest⟩ := alike.tag <;> cases tag
    obtain ⟨rfl, next⟩ := rest.size
    obtain ⟨rfl, tail⟩ := Expr.stream_readable _ _ _ _ next
    obtain ⟨rfl, more⟩ := Expr.stream_readable _ _ _ _ tail
    obtain ⟨length, last⟩ := more.size
    obtain ⟨rfl, done⟩ := streamOf_readable _ _ _ _ length last
    exact ⟨rfl, done⟩
  | branch cond yes no =>
    cases b <;> simp only [stream, List.cons_append, List.append_assoc] at alike <;> obtain ⟨tag, rest⟩ := alike.tag <;> cases tag
    obtain ⟨rfl, next⟩ := Expr.stream_readable _ _ _ _ rest
    obtain ⟨length, tail⟩ := next.size
    obtain ⟨rfl, more⟩ := streamOf_readable _ _ _ _ length tail
    obtain ⟨length, last⟩ := more.size
    obtain ⟨rfl, done⟩ := streamOf_readable _ _ _ _ length last
    exact ⟨rfl, done⟩
  | ret e =>
    cases b <;> obtain ⟨tag, rest⟩ := alike.tag <;> cases tag
    obtain ⟨rfl, next⟩ := Expr.stream_readable _ _ _ _ rest
    exact ⟨rfl, next⟩

theorem streamOf_readable (as bs : List Stmt) (s t : List Token) (length : as.length = bs.length)
    (alike : c.Alike (streamOf as ++ s) (streamOf bs ++ t) x y) : as = bs ∧ c.Alike s t x y := by
  cases as with
  | nil =>
    cases bs with
    | nil => exact ⟨rfl, alike⟩
    | cons => cases length
  | cons a as =>
    cases bs with
    | nil => cases length
    | cons b bs =>
      simp only [streamOf, List.append_assoc] at alike
      obtain ⟨rfl, rest⟩ := stream_readable _ _ _ _ alike
      obtain ⟨rfl, next⟩ := streamOf_readable _ _ _ _ (by simpa using length) rest
      exact ⟨rfl, next⟩

end

end Stmt

theorem Param.streams_readable (as bs : List Param) (s t : List Token) (length : as.length = bs.length)
    (alike : c.Alike (as.flatMap Param.stream ++ s) (bs.flatMap Param.stream ++ t) x y) :
    as.map (·.type) = bs.map (·.type) ∧ c.Alike s t x y := by
  induction as generalizing bs with
  | nil =>
    cases bs with
    | nil => exact ⟨rfl, alike⟩
    | cons => cases length
  | cons a as ih =>
    cases bs with
    | nil => cases length
    | cons b bs =>
      obtain ⟨_, type⟩ := a
      obtain ⟨_, other⟩ := b
      cases type with
      | none =>
        cases other <;> obtain ⟨tag, rest⟩ := alike.tag <;> cases tag
        obtain ⟨types, next⟩ := ih bs (by simpa using length) rest
        exact ⟨by simp [types], next⟩
      | some type =>
        cases other <;> obtain ⟨tag, rest⟩ := alike.tag <;> cases tag
        obtain ⟨rank, next⟩ := rest.tag
        cases ValueType.rank_inj _ _ rank
        obtain ⟨types, tail⟩ := ih bs (by simpa using length) next
        exact ⟨by simp [types], tail⟩

namespace Body

structure SameUpToNames (a b : Body) : Prop where
  types : a.params.map (·.type) = b.params.map (·.type)
  locals : a.locals = b.locals
  stmts : a.stmts = b.stmts

theorem stream_readable (a b : Body) (s t : List Token) (alike : c.Alike (a.stream ++ s) (b.stream ++ t) x y) :
    SameUpToNames a b ∧ c.Alike s t x y := by
  simp only [stream, List.cons_append, List.append_assoc] at alike
  obtain ⟨length, rest⟩ := alike.size
  obtain ⟨types, next⟩ := Param.streams_readable _ _ _ _ length rest
  obtain ⟨locals, tail⟩ := next.size
  obtain ⟨length, more⟩ := tail.size
  obtain ⟨stmts, last⟩ := Stmt.streamOf_readable _ _ _ _ length more
  exact ⟨⟨types, locals, stmts⟩, last⟩

theorem sameUpToNames_of_stream (a b : Body) (same : a.stream = b.stream) : SameUpToNames a b :=
  (stream_readable a b [] [] (Code.alike_tokens.mpr (by rw [same] : _ ++ [] = _))).1

end Body
end GridKernel
