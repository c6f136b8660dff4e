import Slate.Proofs.Compile.Evaluated

/-!
# Code of expressions follows their evaluation

Started in a state that holds a frame, the code of an expression leads to the state that
the evaluation asks for (`FollowsExpr`).  There is a lemma for every form of expression,
which takes this for granted of its parts.  The induction is on the typing derivation,
which says what there is code for and, by type safety, which kinds of values meet in an
operator.
-/

namespace Slate

variable {a : Assembly} {loading : Loading a.listing} {l : Layout} {env : Env} {final : List Var}
  {calls : Calls ByteArray} {before between after : List Var} {n : Note} {t : Ty}

/-- The code of an expression, compiled anywhere in a function and started in any state
that holds a frame, follows the evaluation in this frame. -/
def FollowsExpr (loading : Loading a.listing) (l : Layout) (env : Env) (final : List Var)
    (calls : Calls ByteArray) (before : List Var) (e : Expr) (after : List Var) : Prop :=
  after <+: final → ∀ ⦃s s' : CompileState⦄ ⦃code : List Instr⦄, s.Tracks env.arguments before →
    compileExpr s e = .ok (code, s') → s'.literals <+: a.literals →
      ∀ ⦃frame : Frame⦄ ⦃m : Machine⦄, frame.Fits env final → Holds loading l frame m →
        Stands a.listing.lines m.line (codeLines code) →
          loading.Follows m (Evaluated loading l m code.length) (evalExpr calls e frame m.output)

/-- The code that pushes arguments follows their evaluation. -/
def FollowsArguments (loading : Loading a.listing) (l : Layout) (env : Env) (final : List Var)
    (calls : Calls ByteArray) (before : List Var) (es : List Expr) (after : List Var) : Prop :=
  after <+: final → ∀ ⦃s s' : CompileState⦄ ⦃code : List Instr⦄, s.Tracks env.arguments before →
    compileArguments s es = .ok (code, s') → s'.literals <+: a.literals →
      ∀ ⦃frame : Frame⦄ ⦃m : Machine⦄, frame.Fits env final → Holds loading l frame m →
        Stands a.listing.lines m.line (codeLines code) →
          loading.Follows m (Pushes loading l m code.length)
            (evalArguments calls es frame m.output)

/-- What an evaluation has answered is of its type, in a frame that fits. -/
theorem InBody.denotes (h : InBody loading l env final calls) {e : Expr}
    (typed : TypedExpr env before e t after) (hkept : after <+: final) {frame : Frame}
    (hframe : frame.Fits env final) {r : Value × Frame} {state state' : ByteArray}
    (hrun : evalExpr calls e frame state = .done r state') :
    r.2.Fits env final ∧ r.2.Denotes r.1 t :=
  (evalExpr_safe h.safe typed (h.distinct.grows hkept) frame hframe).of_done hrun

/-! ## Leaves -/

/-- The code of a literal follows its evaluation. -/
theorem InBody.literal_follows (h : InBody loading l env final calls) {value : Literal}
    (noted : n.type = some value.type) :
    FollowsExpr loading l env final calls before (.literal n value) before := by
  intro _ s s' code hs hcode hliterals frame m hframe hholds hstands
  rw [evalExpr]
  refine .known (noted_eq_ok noted) ?_
  rw [compileExpr_literal noted] at hcode
  cases value with
  | int i =>
      cases hcode
      exact .next (Loading.step_instr hstands) (.answer
        (hholds.evaluated h.sound ⟨rfl, rfl, rfl, rfl, rfl, rfl⟩ (.plain (.int i))) rfl)
  | bool b =>
      cases hcode
      refine .next (Loading.step_instr hstands) (.answer
        (hholds.evaluated h.sound ⟨rfl, rfl, rfl, rfl, rfl, rfl⟩ (.plain ?_)) rfl)
      cases b
      · exact .bool false
      · exact .bool true
  | string literal =>
      cases hcode
      have hindex : a.literals[s.literals.length]? = some literal := by
        obtain ⟨more, hmore⟩ := hliterals
        rw [← hmore]
        simp [CompileState.intern]
      have hsymbol : loading.symbol (.data s.literals.length) = _ :=
        h.unambiguous.symbol_data hindex
      have hmove : loading.execute m (.moveLabel .eax (.data s.literals.length)) =
          .next (m.set .eax (loading.data s.literals.length)).advance := by
        simp only [Loading.execute, hsymbol]
      exact .next ((Loading.step_instr hstands).trans hmove) (.answer
        (hholds.evaluated h.sound ⟨rfl, rfl, rfl, rfl, rfl, rfl⟩ (.plain (.string hindex))) rfl)

/-- So does that of a declaration. -/
theorem InBody.declare_follows (h : InBody loading l env final calls) {v : Var}
    (noted : n.type = some v.type.reference) :
    FollowsExpr loading l env final calls before (.declare n v) (before ++ [v]) := by
  intro hkept s s' code hs hcode hliterals frame m hframe hholds hstands
  rw [evalExpr]
  refine .known (noted_eq_ok noted) ?_
  rw [compileExpr_declare noted] at hcode
  cases hcode
  have hoffset : (s.declare v.name).offsets.lookup v.name = some (localOffset s.slots) := by
    simp [CompileState.declare]
  exact h.follows_declare hholds (h.place (hs.declare v) hkept hoffset) hstands

/-- So does that of a variable. -/
theorem InBody.var_follows (h : InBody loading l env final calls) {name : String} {v : Var}
    (known : env.find? before name = some v) (noted : n.type = some v.type.reference) :
    FollowsExpr loading l env final calls before (.var n name) before := by
  intro hkept s s' code hs hcode hliterals frame m hframe hholds hstands
  rw [evalExpr]
  refine .known (noted_eq_ok noted) ?_
  obtain ⟨offset, hoffset⟩ := hs.lookup known
  rw [compileExpr_var noted hoffset] at hcode
  cases hcode
  refine .ofExcept_bind ?_ fun slot hslot => ?_
  · intro e he code hexit
    rw [(Frame.lookup_eq_error.1 he).2] at hexit
    cases hexit
  · obtain ⟨held, hcell⟩ := Frame.cell_of_slot? (Frame.lookup_eq_ok.1 hslot)
    exact h.follows_place hholds hcell (h.place hs hkept hoffset) hstands

/-! ## Two operands -/

/-- The code of an operand, of another one beside which it is saved, and of what is done
with both.  In the evaluation something that cannot fail may come between them. -/
theorem InBody.operands_follow (h : InBody loading l env final calls)
    (last : Value × Frame → Value × Frame → Run ByteArray (Value × Frame)) {first second : Expr}
    {u : Ty} (htyped : TypedExpr env before first t between) (plain : t.isReference = false)
    (htyped' : TypedExpr env between second u after)
    (hfirst : FollowsExpr loading l env final calls before first between)
    (hsecond : FollowsExpr loading l env final calls between second after)
    (hkept : after <+: final) {s s₁ s₂ : CompileState} {firstCode secondCode rest : List Instr}
    (hs : s.Tracks env.arguments before) (hcode : compileExpr s first = .ok (firstCode, s₁))
    (hs₁ : s₁.Tracks env.arguments between) (hcode' : compileExpr s₁ second = .ok (secondCode, s₂))
    (hext : s₁.Extends s₂) (hliterals : s₂.literals <+: a.literals) {frame : Frame} {m : Machine}
    (hframe : frame.Fits env final) (hholds : Holds loading l frame m)
    (hstands : Stands a.listing.lines m.line
      (codeLines (firstCode ++ (([.push .eax] ++ secondCode ++ [.pop .ecx]) ++ rest))))
    {middle : Value × Frame → Run ByteArray (Value × Frame)}
    (hmiddle : ∀ r, r.1.Fits t → middle r = evalExpr calls second r.2 >>= last r)
    (hlast : ∀ r q m₂, r.1.Fits t → q.2.Fits env final → q.2.Denotes q.1 u →
      Holds loading l q.2 m₂ → Represents loading l q.2 q.1.data (m₂.registers .eax) →
        Encodes loading r.1.data (m₂.registers .ecx) →
          Stands a.listing.lines m₂.line (codeLines rest) →
          loading.Follows m₂ (Evaluated loading l m₂ rest.length) (last r q m₂.output)) :
    loading.Follows m (Evaluated loading l m
        (firstCode ++ (([Instr.push .eax] ++ secondCode ++ [Instr.pop .ecx]) ++ rest)).length)
      ((evalExpr calls first frame >>= middle) m.output) := by
  rw [stands_code, stands_code] at hstands
  obtain ⟨hfirstStands, hsavedStands, hrestStands⟩ := hstands
  have hkept₁ := htyped'.locals_kept.trans hkept
  refine (hfirst hkept₁ hs hcode (hext.literals.trans hliterals) hframe hholds
    hfirstStands).bind fun r m₁ hrun h₁ => ?_
  obtain ⟨hframe₁, hvalue⟩ := h.denotes htyped hkept₁ hframe hrun
  have hfits := hvalue.fits plain
  rw [hmiddle r hfits]
  refine (follows_saved h.sound h₁.holds (h₁.line ▸ hsavedStands) fun m' houtput hholds' hstands' =>
    houtput ▸ hsecond hkept hs₁ hcode' hliterals hframe₁ hholds' hstands').bind
    fun q m₂ hrun₂ h₂ => ?_
  obtain ⟨hframe₂, hvalue₂⟩ := h.denotes htyped' hkept hframe₁ hrun₂
  have hecx : Encodes loading r.1.data (m₂.registers .ecx) := by
    rw [h₂.saved]
    exact h₁.value.encodes hfits.2
  have hstands₂ : Stands a.listing.lines m₂.line (codeLines rest) := by
    rw [h₂.line, h₁.line]
    simpa using hrestStands
  rw [length_operands]
  refine (hlast r q m₂ hfits hframe₂ hvalue₂ h₂.holds h₂.value hecx hstands₂).mono
    fun x m₃ h₃ => ?_
  exact h₁.operands h₂ h₃

/-- So does that of an assignment, where those of its two sides do. -/
theorem InBody.assign_follows (h : InBody loading l env final calls) {left right : Expr}
    (value : TypedExpr env before right t.value between)
    (place : TypedExpr env between left t after) (reference : t.isReference = true)
    (noted : n.type = some t) (hright : FollowsExpr loading l env final calls before right between)
    (hleft : FollowsExpr loading l env final calls between left after) :
    FollowsExpr loading l env final calls before (.assign n left right) after := by
  intro hkept s s' code hs hcode hliterals frame m hframe hholds hstands
  rw [evalExpr]
  refine .known (noted_eq_ok noted) ?_
  obtain ⟨rightCode, s₁, hrightCode, hs₁, hext₁⟩ := compileExpr_ok value s hs
  obtain ⟨leftCode, s₂, hleftCode, hs₂, hext₂⟩ := compileExpr_ok place s₁ hs₁
  rw [compileExpr_assign noted hrightCode hleftCode] at hcode
  cases hcode
  have hparts : rightCode ++ [.push .eax] ++ leftCode ++ [.pop .ecx, .store (.of .eax) .ecx] =
      rightCode ++ (([.push .eax] ++ leftCode ++ [.pop .ecx]) ++
        [Instr.store (.of .eax) .ecx]) := by
    simp
  rw [hparts] at hstands ⊢
  refine h.operands_follow (fun r q => do
    let frame ← Run.ofExcept (q.2.assign q.1 r.1)
    pure (q.1, frame)) value t.isReference_value place hright hleft hkept hs hrightCode hs₁
    hleftCode hext₂ hliterals hframe hholds hstands ?_ ?_
  · rintro ⟨r, frame₁⟩ hfits
    dsimp only
    rw [Frame.valueOf_eq_ok hfits]
    rfl
  · intro r q m₂ hfits hframe₂ hplace hholds₂ hvalue₂ hecx hstands₂
    obtain ⟨assigned, hassign, _, _⟩ := Frame.assign_eq_ok hframe₂ hplace reference hfits
    exact .known hassign (h.follows_assign hholds₂ hvalue₂ hecx hassign hstands₂)

/-- So does that of a binary operation, where those of its operands do. -/
theorem InBody.binary_follows (h : InBody loading l env final calls) {op : BinaryOp}
    {left right : Expr} {operand result : Ty} (first : TypedExpr env before left operand between)
    (second : TypedExpr env between right operand after) (plain : operand.isReference = false)
    (defined : op.resultType operand = .ok result) (noted : n.type = some result)
    (hleft : FollowsExpr loading l env final calls before left between)
    (hright : FollowsExpr loading l env final calls between right after) :
    FollowsExpr loading l env final calls before (.binary n op left right) after := by
  intro hkept s s' code hs hcode hliterals frame m hframe hholds hstands
  rw [evalExpr]
  refine .known (noted_eq_ok noted) ?_
  obtain ⟨leftCode, s₁, hleftCode, hs₁, hext₁⟩ := compileExpr_ok first s hs
  obtain ⟨rightCode, s₂, hrightCode, hs₂, hext₂⟩ := compileExpr_ok second s₁ hs₁
  rw [compileExpr_binary noted hleftCode hrightCode] at hcode
  cases hcode
  have hparts : leftCode ++ [.push .eax] ++ rightCode ++ [.pop .ecx] ++ op.code =
      leftCode ++ (([.push .eax] ++ rightCode ++ [.pop .ecx]) ++ op.code) := by
    simp
  rw [hparts] at hstands ⊢
  refine h.operands_follow (fun r q => do
    let result ← Run.ofExcept (op.apply r.1 q.1)
    pure (result, q.2)) first plain second hleft hright hkept hs hleftCode hs₁ hrightCode hext₂
    hliterals hframe hholds hstands (fun _ _ => rfl) ?_
  intro r q m₂ hfits _ hvalue₂ hholds₂ hrepresents hecx hstands₂
  have hfits₂ := hvalue₂.fits plain
  obtain ⟨v, hv, _⟩ := BinaryOp.apply_fits defined hfits hfits₂
  refine .known hv (.after (BinaryOp.reaches_code defined hfits hfits₂ hv hecx
    (hrepresents.encodes hfits₂.2) hstands₂) fun m₃ h₃ => ?_)
  obtain ⟨w, hw, hcomputes⟩ := h₃
  exact .answer (hholds₂.evaluated h.sound hcomputes (.plain hw)) hcomputes.output

/-! ## One operand -/

/-- The code of a unary operation follows its evaluation, where that of its operand does. -/
theorem InBody.unary_follows (h : InBody loading l env final calls) {op : UnaryOp}
    {operand : Expr} (value : TypedExpr env before operand op.operandType after)
    (noted : n.type = some op.operandType)
    (hoperand : FollowsExpr loading l env final calls before operand after) :
    FollowsExpr loading l env final calls before (.unary n op operand) after := by
  intro hkept s s' code hs hcode hliterals frame m hframe hholds hstands
  have hplain : op.operandType.isReference = false := by
    cases op <;> rfl
  rw [evalExpr]
  refine .known (noted_eq_ok noted) ?_
  obtain ⟨operandCode, s₁, hoperandCode, _, _⟩ := compileExpr_ok value s hs
  rw [compileExpr_unary noted hoperandCode] at hcode
  cases hcode
  rw [stands_code] at hstands
  refine (hoperand hkept hs hoperandCode hliterals hframe hholds hstands.1).bind
    fun r m₁ hrun h₁ => ?_
  have hfits := (h.denotes value hkept hframe hrun).2.fits hplain
  obtain ⟨v, hv, _⟩ := UnaryOp.apply_fits hfits
  refine .known hv ?_
  have hreach := UnaryOp.reaches_code hfits hv (h₁.value.encodes hfits.2)
    (h₁.line ▸ hstands.2)
  refine .after hreach fun m₂ h₂ => ?_
  obtain ⟨w, hw, hcomputes⟩ := h₂
  rw [List.length_append]
  exact .answer (h₁.computes h.sound hcomputes (.plain hw)) hcomputes.output

/-- So does that of a cast, where that of its operand does. -/
theorem InBody.cast_follows (h : InBody loading l env final calls) {operand : Expr}
    (place : TypedExpr env before operand t after) (reference : t.isReference = true)
    (noted : n.type = some t.value)
    (hoperand : FollowsExpr loading l env final calls before operand after) :
    FollowsExpr loading l env final calls before (.cast n operand) after := by
  intro hkept s s' code hs hcode hliterals frame m hframe hholds hstands
  rw [evalExpr]
  refine .known (noted_eq_ok noted) ?_
  obtain ⟨operandCode, s₁, hoperandCode, _, _⟩ := compileExpr_ok place s hs
  rw [compileExpr_cast noted place.noted reference hoperandCode] at hcode
  cases hcode
  rw [stands_code] at hstands
  refine (hoperand hkept hs hoperandCode hliterals hframe hholds hstands.1).bind
    fun r m₁ hrun h₁ => ?_
  obtain ⟨hframe₁, hplace⟩ := h.denotes place hkept hframe hrun
  obtain ⟨v, hv, _⟩ := Frame.cast_eq_ok hframe₁ hplace reference
  refine .known hv ?_
  rw [List.length_append]
  refine (h.follows_cast h₁.holds h₁.value hv (h₁.line ▸ hstands.2)).mono fun q m₂ h₂ => ?_
  exact h₂.behind h₁.line h₁.stack h₁.keeps

/-! ## Calls -/

/-- The code of a call: that of the arguments, and what stands behind them. -/
theorem InBody.callee_follows (h : InBody loading l env final calls) {name : String}
    {args : List Expr} {types : List Ty} (noted : n.type = some t)
    (hfew : name = syscallName → args.length ≤ syscallMaxArguments)
    (arguments : TypedArguments env before args types after)
    (hargs : FollowsArguments loading l env final calls before args after)
    (hcallee : ∀ (count : Nat) (r : List Value × Frame) (frame : Frame) (m m₁ : Machine),
      ValuesFit r.1 types → r.1.length = args.length → Pushes loading l m count r m₁ →
        Holds loading l frame m →
          Stands a.listing.lines m₁.line (codeLines (callCode name r.1.length)) →
            loading.Follows m₁ (fun v =>
                Evaluated loading l m (count + (callCode name r.1.length).length) (v, r.2))
              (calls name r.1 m₁.output)) :
    FollowsExpr loading l env final calls before (.call n name args) after := by
  intro hkept s s' code hs hcode hliterals frame m hframe hholds hstands
  rw [evalExpr]
  refine .known (noted_eq_ok noted) ?_
  obtain ⟨pushes, s₁, hpushes, _, _⟩ := compileArguments_ok arguments s hs
  rw [compileExpr_call noted hfew hpushes] at hcode
  cases hcode
  rw [stands_code] at hstands
  refine (hargs hkept hs hpushes hliterals hframe hholds hstands.1).bind fun r m₁ hrun h₁ => ?_
  have hfits := ((evalArguments_safe h.safe arguments (h.distinct.grows hkept) frame
    hframe).of_done hrun).2
  have hlength : r.1.length = args.length := by
    rw [hfits.length_eq, arguments.length_eq]
  have hstands₁ : Stands a.listing.lines m₁.line (codeLines (callCode name r.1.length)) := by
    rw [h₁.line, hlength]
    exact hstands.2
  rw [List.length_append, ← hlength]
  refine (hcallee _ r frame m m₁ hfits hlength h₁ hholds hstands₁).bind fun v m₂ _ h₂ => ?_
  exact .answer h₂ rfl

/-- Arguments are pushed as they are evaluated, one by one. -/
theorem InBody.arguments_follow (h : InBody loading l env final calls) {e : Expr}
    {es : List Expr} {ts : List Ty} (argument : TypedExpr env before e t between)
    (plain : t.isReference = false) (others : TypedArguments env between es ts after)
    (hfirst : FollowsExpr loading l env final calls before e between)
    (hothers : FollowsArguments loading l env final calls between es after) :
    FollowsArguments loading l env final calls before (e :: es) after := by
  intro hkept s s' code hs hcode hliterals frame m hframe hholds hstands
  rw [evalArguments]
  obtain ⟨first, s₁, hfirstCode, hs₁, _⟩ := compileExpr_ok argument s hs
  obtain ⟨rest, s₂, hrest, _, hext₂⟩ := compileArguments_ok others s₁ hs₁
  rw [compileArguments_cons hfirstCode hrest] at hcode
  cases hcode
  have hkept₁ := others.locals_kept.trans hkept
  rw [List.append_assoc, stands_code] at hstands
  refine (hfirst hkept₁ hs hfirstCode (hext₂.literals.trans hliterals) hframe hholds
    hstands.1).bind fun r m₁ hrun h₁ => ?_
  obtain ⟨hframe₁, hvalue⟩ := h.denotes argument hkept₁ hframe hrun
  have hfits := hvalue.fits plain
  refine .known (Frame.valueOf_eq_ok hfits) ?_
  refine (follows_pushed h.sound h₁.holds (h₁.value.encodes hfits.2) (h₁.line ▸ hstands.2)
    fun m' houtput hholds' hstands' => houtput ▸ hothers hkept hs₁ hrest hliterals hframe₁ hholds'
      hstands').bind fun rs m₂ _ h₂ => ?_
  have hcount : (first ++ [Instr.push .eax] ++ rest).length =
      first.length + (rest.length + 1) := by
    simp only [List.length_append, List.length_singleton]
    omega
  rw [hcount]
  exact .answer (h₂.behind h₁.line h₁.stack h₁.keeps) rfl

/-! ## All expressions -/

mutual

/-- **Expressions.**  The code of a typed expression follows its evaluation. -/
theorem evalExpr_follows (h : InBody loading l env final calls) {before after : List Var}
    {e : Expr} {t : Ty} : TypedExpr env before e t after →
      FollowsExpr loading l env final calls before e after
  | .literal noted => h.literal_follows noted
  | .declare _ _ _ noted => h.declare_follows noted
  | .var known noted => h.var_follows known noted
  | .assign value place reference noted =>
      h.assign_follows value place reference noted (evalExpr_follows h value)
        (evalExpr_follows h place)
  | .syscall few arguments noted =>
      h.callee_follows noted (fun _ => few) arguments (evalArguments_follows h arguments)
        fun _ _ _ _ _ _ hlength hpushes hholds hstands =>
          h.follows_syscall hpushes hholds (hlength ▸ few) hstands
  | .call other known arguments noted =>
      h.callee_follows noted (fun hname => (other hname).elim) arguments
        (evalArguments_follows h arguments) fun _ _ _ _ _ hfits _ hpushes hholds hstands =>
          h.follows_call other known hpushes hholds hfits hstands
  | .binary first second plain defined noted =>
      h.binary_follows first second plain defined noted (evalExpr_follows h first)
        (evalExpr_follows h second)
  | .unary value noted => h.unary_follows value noted (evalExpr_follows h value)
  | .cast place reference noted =>
      h.cast_follows place reference noted (evalExpr_follows h place)

/-- The same for the arguments of a call. -/
theorem evalArguments_follows (h : InBody loading l env final calls) {before after : List Var}
    {es : List Expr} {ts : List Ty} : TypedArguments env before es ts after →
      FollowsArguments loading l env final calls before es after
  | .nil => by
      intro _ s s' code hs hcode hliterals frame m hframe hholds hstands
      rw [evalArguments]
      cases hcode
      exact .answer ⟨rfl, rfl, trivial, hholds, .refl _ _ _⟩ rfl
  | .cons argument plain others =>
      h.arguments_follow argument plain others (evalExpr_follows h argument)
        (evalArguments_follows h others)

end

end Slate
