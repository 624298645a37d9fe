import Flame.Run.Arithmetic
import Flame.Run.Environment
import Mathlib.Data.List.Forall2
import Mathlib.Tactic.Lemma

/-!
Programs, values and environments that differ in details.

Several things that a program holds do not matter to its run, or only to what is reported of it:
the spans of empty statements, the types that parameters declare, the tags of variables. A likeness
says which of them may differ, and which names and functions may occur. It is carried from programs
to the values that hold functions, and from values to the variables and scopes of an environment.
-/

namespace Flame

/-! ### Names -/

mutual

/-- The names that an expression refers to. -/
def Expr.names : Expr → List String
  | .int _ | .void => []
  | .var name => [name]
  | .call callee args => callee :: Expr.namesOfList args
  | .binary _ left right => left.names ++ right.names

/-- The names that expressions refer to. -/
def Expr.namesOfList : List Expr → List String
  | [] => []
  | e :: es => e.names ++ Expr.namesOfList es

end

mutual

/-- The names that a statement mentions: those it refers to and those it binds, at any depth. -/
def Stmt.names : Stmt → List String
  | .function name params body => name :: (params.map (·.name) ++ Block.names body)
  | .ret e => e.names
  | .cond condition body => condition.names ++ Block.names body
  | .expr e => e.names
  | .bind name init => name :: init.names
  | .empty _ => []

/-- The names that a block mentions. -/
def Block.names : List Stmt → List String
  | [] => []
  | s :: ss => s.names ++ Block.names ss

end

/-- The names that a run of a function's body mentions. -/
def FunctionDef.names (f : FunctionDef) : List String :=
  f.params.map (·.name) ++ Block.names f.body

mutual

/-- The functions that a statement defines, at any depth. -/
def Stmt.functions : Stmt → List FunctionDef
  | .function name params body => ⟨name, params, body⟩ :: Block.functions body
  | .cond _ body => Block.functions body
  | _ => []

/-- The functions that a block defines, at any depth. -/
def Block.functions : List Stmt → List FunctionDef
  | [] => []
  | s :: ss => s.functions ++ Block.functions ss

end

/-- A function, and those defined in its body. -/
def FunctionDef.functions (f : FunctionDef) : List FunctionDef := f :: Block.functions f.body

/-! ### Likenesses -/

/-- In what two programs may differ, and which names and functions they may hold. -/
structure Likeness where
  name : String → Prop
  /-- The parameters that a function may have. -/
  params : List Param → Prop
  /-- The declared types of corresponding parameters. -/
  paramTag : TypeTag → TypeTag → Prop
  /-- The tags of corresponding variables. -/
  varTag : TypeTag → TypeTag → Prop
  /-- The spans of corresponding empty statements. -/
  span : Span → Span → Prop
  varTag_refl : ∀ t, varTag t t
  varTag_of_paramTag : ∀ {t u}, paramTag t u → varTag t u

/-- The likeness of programs that are the same, mention certain names only, and define functions
with certain parameters only. -/
def Likeness.exact (name : String → Prop) (params : List Param → Prop) : Likeness where
  name := name
  params := params
  paramTag := Eq
  varTag := Eq
  span := Eq
  varTag_refl _ := rfl
  varTag_of_paramTag h := h

/-- The likeness of programs that are the same but for the spans of empty statements. -/
def Likeness.spansAside : Likeness where
  name _ := True
  params _ := True
  paramTag := Eq
  varTag := Eq
  span _ _ := True
  varTag_refl _ := rfl
  varTag_of_paramTag h := h

section

variable (L : Likeness)

/-- The expression mentions allowed names only. -/
def Expr.Allowed (e : Expr) : Prop := ∀ x ∈ e.names, L.name x

structure ParamAlike (p q : Param) : Prop where
  name_eq : p.name = q.name
  allowed : L.name p.name
  tag : L.paramTag p.tag q.tag

mutual

inductive StmtAlike : Stmt → Stmt → Prop
  | function {name : String} {ps qs : List Param} {b b' : Block} (allowed : L.name name)
      (declared : L.params ps) (params : List.Forall₂ (ParamAlike L) ps qs)
      (body : BlockAlike b b') : StmtAlike (.function name ps b) (.function name qs b')
  | ret {e : Expr} (value : e.Allowed L) : StmtAlike (.ret e) (.ret e)
  | cond {e : Expr} {b b' : Block} (condition : e.Allowed L) (body : BlockAlike b b') :
      StmtAlike (.cond e b) (.cond e b')
  | expr {e : Expr} (value : e.Allowed L) : StmtAlike (.expr e) (.expr e)
  | bind {name : String} {e : Expr} (allowed : L.name name) (init : e.Allowed L) :
      StmtAlike (.bind name e) (.bind name e)
  | empty {s t : Span} (span : L.span s t) : StmtAlike (.empty s) (.empty t)

inductive BlockAlike : Block → Block → Prop
  | nil : BlockAlike [] []
  | cons {s s' : Stmt} {b b' : Block} (first : StmtAlike s s') (others : BlockAlike b b') :
      BlockAlike (s :: b) (s' :: b')

end

structure FunctionAlike (f g : FunctionDef) : Prop where
  name_eq : f.name = g.name
  declared : L.params f.params
  params : List.Forall₂ (ParamAlike L) f.params g.params
  body : BlockAlike L f.body g.body

/-- The values are the same, or hold functions that are alike. -/
inductive ValueAlike : Value → Value → Prop
  | function {f g : FunctionDef} (h : FunctionAlike L f g) : ValueAlike (.function f) (.function g)
  | plain {v : Value} (h : ∀ f, v ≠ .function f) : ValueAlike v v

structure TypedAlike (v w : TypedValue) : Prop where
  tag_eq : v.tag = w.tag
  value : ValueAlike L v.value w.value

structure VariableAlike (v w : Variable) : Prop where
  name_eq : v.name = w.name
  tag : L.varTag v.tag w.tag
  value : ValueAlike L v.value w.value

/-- The errors are the same, but for the tag of a variable that was called and holds no function. -/
inductive ErrorAlike : RuntimeError → RuntimeError → Prop
  | same {e : RuntimeError} : ErrorAlike e e
  | notCallable {name : String} {t u : TypeTag} (h : L.varTag t u) :
      ErrorAlike (.notCallable name t) (.notCallable name u)

end

section

variable {L : Likeness}

/-! ### Expressions -/

lemma Expr.Allowed.callee {callee : String} {args : List Expr}
    (h : (Expr.call callee args).Allowed L) : L.name callee := h callee (by simp [Expr.names])

lemma Expr.Allowed.args {callee : String} {args : List Expr}
    (h : (Expr.call callee args).Allowed L) : ∀ x ∈ Expr.namesOfList args, L.name x :=
  fun x hx => h x (by simp [Expr.names, hx])

lemma Expr.Allowed.left {op : Operator} {l r : Expr} (h : (Expr.binary op l r).Allowed L) :
    l.Allowed L := fun x hx => h x (by simp [Expr.names, hx])

lemma Expr.Allowed.right {op : Operator} {l r : Expr} (h : (Expr.binary op l r).Allowed L) :
    r.Allowed L := fun x hx => h x (by simp [Expr.names, hx])

/-! ### Values -/

lemma ValueAlike.tag_eq {v w : Value} (h : ValueAlike L v w) : v.tag = w.tag := by
  cases h <;> rfl

lemma ValueAlike.int (n : Int64) : ValueAlike L (.int n) (.int n) :=
  .plain fun _ h => by cases h

lemma TypedAlike.inferred {v w : Value} (h : ValueAlike L v w) :
    TypedAlike L (.inferred v) (.inferred w) := ⟨h.tag_eq, h⟩

lemma TypedAlike.int (n : Int64) : TypedAlike L ⟨.int, .int n⟩ ⟨.int, .int n⟩ := ⟨rfl, .int n⟩

/-- Values that are alike are numbers alike. -/
lemma TypedAlike.operand_eq {v w : TypedValue} (h : TypedAlike L v w) :
    v.operand = w.operand := by
  obtain ⟨tag, v⟩ := v
  obtain ⟨tag', w⟩ := w
  obtain rfl : tag = tag' := h.tag_eq
  have hvalue : ValueAlike L v w := h.value
  cases hvalue with
  | function _ => rfl
  | plain _ => rfl

lemma TypedAlike.apply_eq {l l' r r' : TypedValue} (op : Operator) (hl : TypedAlike L l l')
    (hr : TypedAlike L r r') : op.apply l r = op.apply l' r' := by
  unfold Operator.apply
  rw [hl.operand_eq, hr.operand_eq]

/-! ### Programs that are the same -/

/-- Nothing has to differ. -/
structure Likeness.Reflexive (L : Likeness) : Prop where
  paramTag : ∀ t, L.paramTag t t
  span : ∀ s, L.span s s

mutual

lemma stmtAlike_self (hL : L.Reflexive) : (s : Stmt) → (∀ x ∈ s.names, L.name x) →
    (∀ f ∈ s.functions, L.params f.params) → StmtAlike L s s
  | .function name params body, hnames, hfunctions => by
    simp only [Stmt.names, List.mem_cons, List.mem_append, List.mem_map] at hnames
    simp only [Stmt.functions, List.mem_cons] at hfunctions
    refine .function (hnames name (.inl rfl)) (hfunctions _ (.inl rfl)) ?_ ?_
    · rw [List.forall₂_same]
      exact fun p hp => ⟨rfl, hnames p.name (.inr (.inl ⟨p, hp, rfl⟩)), hL.paramTag p.tag⟩
    · exact blockAlike_self hL body (fun x hx => hnames x (.inr (.inr hx)))
        fun f hf => hfunctions f (.inr hf)
  | .ret e, hnames, _ => .ret hnames
  | .cond condition body, hnames, hfunctions => by
    simp only [Stmt.names, List.mem_append] at hnames
    refine .cond (fun x hx => hnames x (.inl hx)) ?_
    exact blockAlike_self hL body (fun x hx => hnames x (.inr hx)) hfunctions
  | .expr e, hnames, _ => .expr hnames
  | .bind name init, hnames, _ => by
    simp only [Stmt.names, List.mem_cons] at hnames
    exact .bind (hnames name (.inl rfl)) fun x hx => hnames x (.inr hx)
  | .empty span, _, _ => .empty (hL.span span)

/-- A block is like itself if all the names and functions in it are allowed. -/
lemma blockAlike_self (hL : L.Reflexive) : (b : Block) → (∀ x ∈ Block.names b, L.name x) →
    (∀ f ∈ Block.functions b, L.params f.params) → BlockAlike L b b
  | [], _, _ => .nil
  | s :: ss, hnames, hfunctions => by
    simp only [Block.names, List.mem_append] at hnames
    simp only [Block.functions, List.mem_append] at hfunctions
    refine .cons ?_ ?_
    · exact stmtAlike_self hL s (fun x hx => hnames x (.inl hx)) fun f hf => hfunctions f (.inl hf)
    · exact blockAlike_self hL ss (fun x hx => hnames x (.inr hx))
        fun f hf => hfunctions f (.inr hf)

end

lemma valueAlike_self (hL : L.Reflexive) {v : Value}
    (hnames : ∀ f, v = .function f → ∀ x ∈ f.names, L.name x)
    (hfunctions : ∀ f, v = .function f → ∀ g ∈ f.functions, L.params g.params) :
    ValueAlike L v v := by
  cases v with
  | function f =>
    have hf := hnames f rfl
    have hg := hfunctions f rfl
    simp only [FunctionDef.names, List.mem_append, List.mem_map] at hf
    simp only [FunctionDef.functions, List.mem_cons] at hg
    refine .function ⟨rfl, hg f (.inl rfl), ?_, ?_⟩
    · rw [List.forall₂_same]
      exact fun p hp => ⟨rfl, hf p.name (.inl ⟨p, hp, rfl⟩), hL.paramTag p.tag⟩
    · exact blockAlike_self hL f.body (fun x hx => hf x (.inr hx)) fun g hg' => hg g (.inr hg')
  | _ => exact .plain fun f heq => by cases heq

end

/-! ### Programs that may differ in nothing -/

lemma Likeness.reflexive_exact (name : String → Prop) (params : List Param → Prop) :
    (exact name params).Reflexive := ⟨fun _ => rfl, fun _ => rfl⟩

/-- Nothing in a program may differ. Tags of variables are no part of a program, and still may. -/
structure Likeness.Strict (L : Likeness) : Prop where
  paramTag : ∀ {t u}, L.paramTag t u → t = u
  span : ∀ {s t}, L.span s t → s = t

lemma Likeness.strict_exact {name : String → Prop} {params : List Param → Prop} :
    (exact name params).Strict := ⟨fun h => h, fun h => h⟩

section

variable {L : Likeness}

lemma ParamAlike.eq (hL : L.Strict) {p q : Param} (h : ParamAlike L p q) : p = q := by
  obtain ⟨tag, x⟩ := p
  obtain ⟨tag', y⟩ := q
  obtain rfl : x = y := h.name_eq
  obtain rfl : tag = tag' := hL.paramTag h.tag
  rfl

lemma eq_of_forall₂_paramAlike (hL : L.Strict) {ps qs : List Param}
    (h : List.Forall₂ (ParamAlike L) ps qs) : ps = qs := by
  induction h with
  | nil => rfl
  | cons hp _ ih => rw [hp.eq hL, ih]

mutual

lemma StmtAlike.eq (hL : L.Strict) : {s s' : Stmt} → StmtAlike L s s' → s = s'
  | .function .., _, .function _ _ hparams body => by
    rw [eq_of_forall₂_paramAlike hL hparams, BlockAlike.eq hL body]
  | .ret _, _, .ret _ => rfl
  | .cond .., _, .cond _ body => by rw [BlockAlike.eq hL body]
  | .expr _, _, .expr _ => rfl
  | .bind .., _, .bind _ _ => rfl
  | .empty _, _, .empty span => by rw [hL.span span]

/-- Blocks that may differ in nothing are equal. -/
lemma BlockAlike.eq (hL : L.Strict) : {b b' : Block} → BlockAlike L b b' → b = b'
  | [], _, .nil => rfl
  | _ :: _, _, .cons first others => by rw [StmtAlike.eq hL first, BlockAlike.eq hL others]

end

lemma ValueAlike.eq (hL : L.Strict) {v w : Value} (h : ValueAlike L v w) : v = w := by
  cases h with
  | @function f g h =>
    obtain ⟨f, ps, b⟩ := f
    obtain ⟨g, qs, b'⟩ := g
    obtain rfl : f = g := h.name_eq
    obtain rfl : ps = qs := eq_of_forall₂_paramAlike hL h.params
    obtain rfl : b = b' := h.body.eq hL
    rfl
  | plain _ => rfl

lemma TypedAlike.eq (hL : L.Strict) {v w : TypedValue} (h : TypedAlike L v w) : v = w := by
  obtain ⟨tag, v⟩ := v
  obtain ⟨tag', w⟩ := w
  obtain rfl : tag = tag' := h.tag_eq
  obtain rfl : v = w := h.value.eq hL
  rfl

lemma VariableAlike.eq {name : String → Prop} {params : List Param → Prop} {v w : Variable}
    (h : VariableAlike (.exact name params) v w) : v = w := by
  obtain ⟨x, tag, v⟩ := v
  obtain ⟨y, tag', w⟩ := w
  obtain rfl : x = y := h.name_eq
  obtain rfl : tag = tag' := h.tag
  obtain rfl : v = w := h.value.eq Likeness.strict_exact
  rfl

lemma ErrorAlike.eq (hL : ∀ {t u}, L.varTag t u → t = u) {e e' : RuntimeError}
    (h : ErrorAlike L e e') : e = e' := by
  cases h with
  | same => rfl
  | notCallable h => rw [hL h]

end

/-! ### Environments -/

/-- The scopes have variables that are alike, in the same order. -/
def ScopeAlike (L : Likeness) (s t : Scope) : Prop :=
  List.Forall₂ (VariableAlike L) s.bindings t.bindings

/-- The environments have scopes that are alike, one by one. -/
structure EnvAlike (L : Likeness) (env env' : Environment) : Prop where
  inner : List.Forall₂ (ScopeAlike L) env.inner env'.inner
  global : ScopeAlike L env.global env'.global

/-- A name is bound in neither, or in both and to variables that are alike. -/
inductive FoundAlike (L : Likeness) : Option Variable → Option Variable → Prop
  | none : FoundAlike L none none
  | some {v w : Variable} (h : VariableAlike L v w) : FoundAlike L (some v) (some w)

section

variable {L : Likeness}

lemma ScopeAlike.get? {s t : Scope} (h : ScopeAlike L s t) (x : String) :
    FoundAlike L (s.get? x) (t.get? x) := by
  obtain ⟨vs⟩ := s
  obtain ⟨ws⟩ := t
  unfold ScopeAlike at h
  simp only at h
  unfold Scope.get?
  induction h with
  | nil => exact .none
  | @cons v w vs ws hvw _ ih =>
    simp only [List.find?_cons]
    rw [← hvw.name_eq]
    cases hx : v.name == x with
    | true => exact .some hvw
    | false => exact ih

lemma FoundAlike.findSome? {ss ts : List Scope} (h : List.Forall₂ (ScopeAlike L) ss ts)
    (x : String) : FoundAlike L (ss.findSome? (·.get? x)) (ts.findSome? (·.get? x)) := by
  induction h with
  | nil => exact .none
  | @cons s t ss ts hst _ ih =>
    simp only [List.findSome?_cons]
    have hfound := hst.get? x
    revert hfound
    cases s.get? x <;> cases t.get? x <;> intro hfound
    · exact ih
    · cases hfound
    · cases hfound
    · exact hfound

lemma FoundAlike.isDefined_eq {env env' : Environment} {x : String}
    (h : FoundAlike L (env.find? x) (env'.find? x)) : env.isDefined x = env'.isDefined x := by
  rw [Environment.isDefined_eq_isSome_find?, Environment.isDefined_eq_isSome_find?]
  revert h
  cases env.find? x <;> cases env'.find? x <;> intro h <;> cases h <;> rfl

namespace EnvAlike

variable {env env' : Environment}

lemma scopes (h : EnvAlike L env env') : List.Forall₂ (ScopeAlike L) env.scopes env'.scopes :=
  List.rel_append h.inner (.cons h.global .nil)

lemma find (h : EnvAlike L env env') (x : String) : FoundAlike L (env.find? x) (env'.find? x) :=
  .findSome? h.scopes x

lemma push (h : EnvAlike L env env') : EnvAlike L env.push env'.push :=
  ⟨.cons .nil h.inner, h.global⟩

lemma insert (h : EnvAlike L env env') {v w : Variable} (hvw : VariableAlike L v w) :
    EnvAlike L (env.insert v) (env'.insert w) := by
  obtain ⟨inner, global⟩ := env
  obtain ⟨inner', global'⟩ := env'
  obtain ⟨hinner, hglobal⟩ := h
  simp only at hinner hglobal
  cases hinner with
  | nil => exact ⟨.nil, .cons hvw hglobal⟩
  | cons hs hrest => exact ⟨.cons (.cons hvw hs) hrest, hglobal⟩

/-- An environment is like itself if each function in it is. -/
lemma self (h : ∀ s ∈ env.scopes, ∀ v ∈ s.bindings, ValueAlike L v.value v.value) :
    EnvAlike L env env := by
  have hscope : ∀ s ∈ env.scopes, ScopeAlike L s s := by
    intro s hs
    rw [ScopeAlike, List.forall₂_same]
    exact fun v hv => ⟨rfl, L.varTag_refl v.tag, h s hs v hv⟩
  refine ⟨?_, hscope env.global (by simp [Environment.scopes])⟩
  rw [List.forall₂_same]
  exact fun s hs => hscope s (by simp [Environment.scopes, hs])

end EnvAlike

end

end Flame
