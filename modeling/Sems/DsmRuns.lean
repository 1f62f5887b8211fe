import Sems.DsmEngine
import Sems.Runs

/-!
# The state and the diagram of the DSM engine

The current state of the engine should always be a state of its current diagram, and the stack
should hold states with their diagrams (`EngineOk`). If `runactions` returns `false`, then the
engine is where it was (`After`), and `runEvent` can go to the target.

A loop throws this result away. So a script keeps the engine right (`engineOk_runs`) if its loops do
not change the diagram, every diagram has an initial state, and no diagram is called that does not
exist (`ScriptOk`). A call inside a loop leaves a state of the old diagram with the new diagram
(`run_callInLoop`).
-/

namespace Sems

open List Option DsmEngine

variable {W : Type*}

/-- The current state is one of the current diagram, or there is neither, the stack holds states
with their diagrams, and the engine stayed where it was when a diagram was missing. -/
structure EngineOk (sc : DsmScript W) (s : DsmEngine W) : Prop where
  current : (s.place.current = none ∧ s.place.currentDiag = none) ∨
    ∃ p st, s.place.current = some p ∧ s.place.currentDiag = some p.diag ∧ sc.stateAt p = some st
  stack : ∀ e ∈ s.place.stack, e.state.diag = e.diag ∧ ∃ st, sc.stateAt e.state = some st
  misses : ∀ m ∈ s.misses, m.1 = m.2

/-- The action may ask for a change of the diagram. -/
def SEAction.changesDiag : SEAction → Bool
  | .Jump => true
  | .Call => true
  | .Return => true
  | _ => false

/-- An element does not call a diagram that does not exist, and it does not change the diagram
inside a loop. -/
inductive ElementOk (sc : DsmScript W) : Bool → DsmElement W → Prop
  | action {inLoop : Bool} {a : DsmAction W} :
      (∀ sess ev, (a.getSEAction sess ev).1 = .Call →
        sc.findDiag (a.getSEAction sess ev).2 ≠ none) →
      (inLoop = true → ∀ sess ev, (a.getSEAction sess ev).1.changesDiag = false) →
      ElementOk sc inLoop (.action a)
  | conditionTree {inLoop : Bool} {conditions : List (DsmCondition W)}
      {runIfTrue runIfFalse : List (DsmElement W)} :
      (∀ e ∈ runIfTrue, ElementOk sc inLoop e) → (∀ e ∈ runIfFalse, ElementOk sc inLoop e) →
      ElementOk sc inLoop (.conditionTree conditions runIfTrue runIfFalse)
  | arrayFor {inLoop : Bool} {head : ForHead} {body : List (DsmElement W)} :
      (∀ e ∈ body, ElementOk sc true e) → ElementOk sc inLoop (.arrayFor head body)
  | other {inLoop : Bool} : ElementOk sc inLoop .other

/-- All lists of actions of a state. -/
def DsmState.lists (st : DsmState W) : List (List (DsmElement W)) :=
  st.preActions :: st.postActions :: st.transitions.map DsmTransition.actions

/-- The condition on the script. -/
structure ScriptOk (sc : DsmScript W) : Prop where
  initial : ∀ d ∈ sc.diags, d.getInitialState ≠ none
  lists : ∀ d ∈ sc.diags, ∀ st ∈ d.states, ∀ es ∈ st.lists, ∀ e ∈ es, ElementOk sc false e

/-! ## Pointers -/

section Pointers

variable {sc : DsmScript W} {p : StatePtr} {st : DsmState W} {d : ℕ} {name : Str}

theorem lists_of_stateAt (hsc : ScriptOk sc) (h : sc.stateAt p = some st) :
    ∀ es ∈ st.lists, ∀ e ∈ es, ElementOk sc false e := by
  obtain ⟨diag, hdiag, hst⟩ := bind_eq_some_iff.1 h
  exact hsc.lists diag (mem_of_getElem? hdiag) st (mem_of_getElem? hst)

/-- A state that is found in a diagram. -/
theorem stateAt_of_getState {diag : DsmDiagram W} (hdiag : sc.diags[d]? = some diag) {i : ℕ}
    (h : diag.getState name = some i) : ∃ st, sc.stateAt ⟨d, i⟩ = some st := by
  obtain ⟨hi, -⟩ := findIdx?_eq_some_iff_getElem.1 h
  refine ⟨diag.states[i], ?_⟩
  rw [DsmScript.stateAt, hdiag, bind_some]
  exact getElem?_eq_getElem hi

theorem stateAt_of_targetAt (h : sc.targetAt d name = some p) :
    p.diag = d ∧ ∃ st, sc.stateAt p = some st := by
  obtain ⟨i, hi, rfl⟩ := map_eq_some_iff.1 h
  obtain ⟨diag, hdiag, hget⟩ := bind_eq_some_iff.1 hi
  exact ⟨rfl, stateAt_of_getState hdiag hget⟩

theorem stateAt_of_initialAt (h : sc.initialAt d = some p) :
    p.diag = d ∧ ∃ st, sc.stateAt p = some st := by
  obtain ⟨i, hi, rfl⟩ := map_eq_some_iff.1 h
  obtain ⟨diag, hdiag, hget⟩ := bind_eq_some_iff.1 hi
  rw [DsmDiagram.getInitialState] at hget
  split_ifs at hget
  exact ⟨rfl, stateAt_of_getState hdiag hget⟩

theorem exists_initialAt (hsc : ScriptOk sc) (h : sc.findDiag name = some d) :
    ∃ p, sc.initialAt d = some p := by
  obtain ⟨hd, -⟩ := findIdx?_eq_some_iff_getElem.1 h
  have hget := getElem?_eq_getElem hd
  obtain ⟨i, hi⟩ := ne_none_iff_exists'.1 (hsc.initial _ (getElem_mem hd))
  refine ⟨⟨d, i⟩, ?_⟩
  rw [DsmScript.initialAt, hget, bind_some, hi]
  rfl

end Pointers

/-! ## What a list of actions leaves -/

/-- The engine is right, and the lists on the stack are lists of the script. -/
structure EngineInv (sc : DsmScript W) (s : DsmEngine W) : Prop where
  ok : EngineOk sc s
  actions : ∀ e ∈ s.place.stack, ∀ x ∈ e.actions, ElementOk sc false x

/-- The engine is where it was if the result is `false`, and always inside a loop. -/
structure After (sc : DsmScript W) (inLoop : Bool) (s : DsmEngine W) (r : DsmRun W) : Prop where
  inv : EngineInv sc r.engine
  same : inLoop = true ∨ r.outcome = .returned false → r.engine.place = s.place

/-- What a call of `runactions` leaves. -/
def RunSpec (sc : DsmScript W) (run : RunActions W) : Prop :=
  ∀ (inLoop : Bool) (es : List (DsmElement W)) (ev : DsmEvent) (flags : DsmFlags)
    (s : DsmEngine W), (∀ e ∈ es, ElementOk sc inLoop e) → EngineInv sc s →
      After sc inLoop s (run es ev flags s)

section Lists

variable {sc : DsmScript W} {run : RunActions W} {s t : DsmEngine W} {inLoop : Bool}
  {flags : DsmFlags}

theorem EngineInv.congr (h : EngineInv sc s) (hplace : t.place = s.place)
    (hmisses : t.misses = s.misses) : EngineInv sc t := by
  refine ⟨⟨?_, ?_, ?_⟩, ?_⟩
  · rw [hplace]
    exact h.ok.current
  · rw [hplace]
    exact h.ok.stack
  · rw [hmisses]
    exact h.ok.misses
  · rw [hplace]
    exact h.actions

/-- The session does not count. -/
theorem After.session {r : DsmRun W} {sess : DsmSession W}
    (h : After sc inLoop { s with session := sess } r) : After sc inLoop s r :=
  { h with }

/-! ## Changes of the diagram -/

/-- A change of the diagram that returns `false` leaves the engine where it was. -/
structure Changed (sc : DsmScript W) (s : DsmEngine W) (r : DsmEngine W × DsmOutcome) : Prop where
  inv : EngineInv sc r.1
  same : r.2 = .returned false → r.1.place = s.place

variable {r : DsmEngine W × DsmOutcome}

theorem Changed.after (h : Changed sc s r) : After sc false s ⟨r.1, flags, r.2⟩ :=
  ⟨h.inv, fun hres => h.same (hres.resolve_left (by decide))⟩

theorem noteMiss_spec {name : Str} (h : Changed sc s r)
    (hsame : sc.findDiag name = none → r.1.place = s.place) :
    Changed sc s (noteMiss sc name s r) := by
  rw [noteMiss]
  cases hfind : sc.findDiag name with
  | some d => exact h
  | none =>
    refine ⟨⟨⟨h.inv.ok.current, h.inv.ok.stack, ?_⟩, h.inv.actions⟩, h.same⟩
    refine forall_mem_append.2 ⟨h.inv.ok.misses, forall_mem_singleton.2 ?_⟩
    exact (hsame hfind).symm

variable {rest : List (DsmElement W)} (hsc : ScriptOk sc) (hrun : RunSpec sc run)
  (h : EngineInv sc s) (ev : DsmEvent)

include hsc hrun h

theorem jumpDiag_spec (name : Str) :
    Changed sc s (jumpDiag sc run name ev s) ∧
      ((jumpDiag sc run name ev s).2 = .returned false → sc.findDiag name = none) := by
  rw [jumpDiag]
  cases hfind : sc.findDiag name with
  | none => exact ⟨⟨h, fun _ => rfl⟩, fun _ => rfl⟩
  | some d =>
    obtain ⟨p, hp⟩ := exists_initialAt hsc hfind
    obtain ⟨rfl, st, hst⟩ := stateAt_of_initialAt hp
    dsimp only
    rw [hp, bind_some, hst]
    have hgoto : EngineInv sc
        { s with place := { s.place with currentDiag := some p.diag, current := some p } } :=
      ⟨⟨.inr ⟨p, st, rfl, rfl, hst⟩, h.ok.stack, h.ok.misses⟩, h.actions⟩
    have hafter := hrun false st.preActions ev ⟨true, false⟩ _
      (lists_of_stateAt hsc hst _ mem_cons_self) hgoto
    dsimp only
    generalize run st.preActions ev ⟨true, false⟩ _ = r at hafter
    cases hout : r.outcome with
    | returned b | threw params | crashed | outOfFuel => exact ⟨⟨hafter.inv, nofun⟩, nofun⟩

theorem callDiag_spec (hrest : ∀ e ∈ rest, ElementOk sc false e) {name : Str}
    (hname : sc.findDiag name ≠ none) : Changed sc s (callDiag sc run name rest ev s) := by
  rw [callDiag]
  rcases h.ok.current with ⟨hcur, hdiag⟩ | ⟨p, st, hcur, hdiag, hst⟩
  · rw [hcur, hdiag]
    exact ⟨h, fun _ => rfl⟩
  · rw [hcur, hdiag]
    have hpush : EngineInv sc { s with place := { s.place with
        stack := ⟨p.diag, p, rest⟩ :: s.place.stack } } := by
      refine ⟨⟨.inr ⟨p, st, hcur, hdiag, hst⟩, ?_, h.ok.misses⟩, ?_⟩
      · exact forall_mem_cons.2 ⟨⟨rfl, st, hst⟩, h.ok.stack⟩
      · exact forall_mem_cons.2 ⟨hrest, h.actions⟩
    obtain ⟨hchanged, hmissing⟩ := jumpDiag_spec hsc hrun hpush ev name
    exact ⟨hchanged.inv, fun hfalse => absurd (hmissing hfalse) hname⟩

omit hsc in
theorem returnDiag_spec : Changed sc s (returnDiag run ev s) := by
  rw [returnDiag]
  cases hstack : s.place.stack with
  | nil => exact ⟨h, fun _ => rfl⟩
  | cons top stack =>
    have hall := h.ok.stack
    have hacts := h.actions
    rw [hstack, forall_mem_cons] at hall hacts
    obtain ⟨⟨hdiag, st, hst⟩, hall⟩ := hall
    have hpop : EngineInv sc { s with place := ⟨some top.diag, some top.state, stack⟩ } :=
      ⟨⟨.inr ⟨top.state, st, rfl, congrArg some hdiag.symm, hst⟩, hall, h.ok.misses⟩, hacts.2⟩
    have hafter := hrun false top.actions ev ⟨false, false⟩ _ hacts.1 hpop
    dsimp only
    generalize run top.actions ev ⟨false, false⟩ _ = r at hafter
    cases hout : r.outcome with
    | returned b =>
      split_ifs
      · exact ⟨hafter.inv, nofun⟩
      · exact ⟨hafter.inv, nofun⟩
    | threw params | crashed | outOfFuel => exact ⟨hafter.inv, nofun⟩

/-! ## Elements -/

theorem runSEAction_spec (hrest : ∀ e ∈ rest, ElementOk sc inLoop e) {se : SEAction × Str}
    (hcall : se.1 = .Call → sc.findDiag se.2 ≠ none)
    (hloop : inLoop = true → se.1.changesDiag = false) :
    After sc inLoop s (runSEAction sc run se rest ev flags s) := by
  obtain ⟨kind, name⟩ := se
  -- a change of the diagram is not inside a loop
  have hnot (hchange : kind.changesDiag = true) : inLoop = false :=
    Bool.eq_false_iff.2 fun hin => absurd (hchange.symm.trans (hloop hin)) (by decide)
  cases kind with
  | None | Repost | Break => exact ⟨h, fun _ => rfl⟩
  | Jump =>
    obtain rfl := hnot rfl
    refine (noteMiss_spec (jumpDiag_spec hsc hrun h ev name).1 fun hnone => ?_).after
    rw [jumpDiag, hnone]
  | Call =>
    obtain rfl := hnot rfl
    have hname := hcall rfl
    have hchanged := callDiag_spec hsc hrun h ev hrest hname
    exact (noteMiss_spec hchanged fun hnone => absurd hnone hname).after
  | Return =>
    obtain rfl := hnot rfl
    exact (returnDiag_spec hrun h ev).after

theorem runAction_spec {a : DsmAction W} (ha : ElementOk sc inLoop (.action a))
    (hrest : ∀ e ∈ rest, ElementOk sc inLoop e) :
    After sc inLoop s (runAction sc run a rest ev flags s) := by
  cases ha with
  | action hcall hloop =>
    rw [runAction]
    generalize a.execute s.session ev = res
    obtain ⟨sess, res⟩ := res
    have hsess : EngineInv sc { s with session := sess } := h.congr rfl rfl
    rcases res with params | res
    · exact ⟨hsess, fun _ => rfl⟩
    · cases res with
      | false => exact ⟨hsess, fun _ => rfl⟩
      | true =>
        exact (runSEAction_spec hsc hrun hsess ev hrest (hcall sess ev)
          (fun hin => hloop hin sess ev)).session

omit hsc in
theorem runConditionTree_spec {conditions : List (DsmCondition W)}
    {runIfTrue runIfFalse : List (DsmElement W)} (htrue : ∀ e ∈ runIfTrue, ElementOk sc inLoop e)
    (hfalse : ∀ e ∈ runIfFalse, ElementOk sc inLoop e) :
    After sc inLoop s (runConditionTree run conditions runIfTrue runIfFalse ev flags s) := by
  rw [runConditionTree]
  generalize matchAll conditions s.session ev = res
  obtain ⟨sess, res⟩ := res
  have hsess : EngineInv sc { s with session := sess } := h.congr rfl rfl
  rcases res with params | matched
  · exact ⟨hsess, fun _ => rfl⟩
  · have hlist : ∀ e ∈ if matched then runIfTrue else runIfFalse, ElementOk sc inLoop e := by
      split_ifs
      · exact htrue
      · exact hfalse
    exact (hrun inLoop _ ev flags _ hlist hsess).session

variable {body : List (DsmElement W)}

omit hsc h in
/-- The rounds of a loop leave the engine where it was. -/
theorem forLoop_spec (hbody : ∀ e ∈ body, ElementOk sc true e) :
    ∀ (rounds : List (List (Str × Str))) (isConsumed : Bool) {s : DsmEngine W}, EngineInv sc s →
      After sc true s (forLoop run body ev rounds isConsumed s)
  | [], _, _, h => ⟨h, fun _ => rfl⟩
  | vals :: rounds, isConsumed, s, h => by
    have hsess : EngineInv sc { s with session := s.session.setVars vals } := h.congr rfl rfl
    have hafter := (hrun true body ev ⟨isConsumed, false⟩ _ hbody hsess).session
    rw [forLoop]
    generalize run body ev ⟨isConsumed, false⟩ _ = r at hafter
    have hplace := hafter.same (.inl rfl)
    cases hout : r.outcome with
    | returned b =>
      split_ifs
      · exact ⟨hafter.inv, fun _ => hplace⟩
      · have hnext := forLoop_spec hbody rounds r.flags.isConsumed hafter.inv
        exact ⟨hnext.inv, fun hin => (hnext.same hin).trans hplace⟩
    | threw params | crashed | outOfFuel => exact hafter

omit hsc in
theorem runFor_spec (hbody : ∀ e ∈ body, ElementOk sc true e) {head : ForHead} :
    After sc inLoop s (runFor sc run head body ev flags s) := by
  rw [runFor]
  cases forRounds sc head s.session ev with
  | none => exact ⟨h, fun _ => rfl⟩
  | some rounds =>
    have hafter := forLoop_spec hrun ev hbody rounds flags.isConsumed h
    dsimp only
    generalize forLoop run body ev rounds flags.isConsumed s = r at hafter
    have hplace := hafter.same (.inl rfl)
    cases hout : r.outcome with
    | returned b => exact ⟨hafter.inv.congr rfl rfl, fun _ => hplace⟩
    | threw params | crashed | outOfFuel => exact ⟨hafter.inv, fun _ => hplace⟩

theorem runElement_spec {e : DsmElement W} (he : ElementOk sc inLoop e)
    (hrest : ∀ x ∈ rest, ElementOk sc inLoop x) (flags : DsmFlags) :
    After sc inLoop s (runElement sc run e rest ev flags s) := by
  rw [runElement.eq_def]
  cases he with
  | action hcall hloop => exact runAction_spec hsc hrun h ev (.action hcall hloop) hrest
  | conditionTree htrue hfalse => exact runConditionTree_spec hrun h ev htrue hfalse
  | arrayFor hbody =>
    dsimp only
    split_ifs
    · exact ⟨h, fun _ => rfl⟩
    · exact runFor_spec hrun h ev hbody
  | other => exact ⟨h, fun _ => rfl⟩

omit hrun h in
theorem runactions_spec : ∀ fuel, RunSpec sc (runactions sc fuel)
  | 0, _, _, _, _, _, _, h => ⟨h, fun _ => rfl⟩
  | _ + 1, _, [], _, _, _, _, h => ⟨h, fun _ => rfl⟩
  | fuel + 1, inLoop, e :: rest, ev, flags, s, hes, h => by
    obtain ⟨he, hrest⟩ := forall_mem_cons.1 hes
    have hrun := runactions_spec fuel
    have hafter := runElement_spec hsc hrun h ev he hrest flags
    rw [runactions]
    generalize runElement sc (runactions sc fuel) e rest ev flags s = r at hafter
    cases hout : r.outcome with
    | returned b =>
      cases b with
      | true => exact hafter
      | false =>
        have hplace := hafter.same (.inr hout)
        have hnext := hrun inLoop rest ev r.flags r.engine hrest hafter.inv
        exact ⟨hnext.inv, fun hin => (hnext.same hin).trans hplace⟩
    | threw params | crashed | outOfFuel => exact hafter

end Lists

/-! ## Events -/

section Events

variable {sc : DsmScript W} {run : RunActions W} {s : DsmEngine W} {st : DsmState W}

/-- A list of actions in `runEvent`, and what comes after it if the engine is where it was. -/
theorem thenRun_inv {r : DsmRun W} (hafter : After sc false s r)
    {next : DsmFlags → DsmEngine W → DsmRun W}
    (hnext : ∀ flags t, EngineInv sc t → t.place = s.place → EngineInv sc (next flags t).engine) :
    EngineInv sc (thenRun r next).engine := by
  rw [thenRun]
  cases hout : r.outcome with
  | returned b =>
    cases b with
    | true => exact hafter.inv
    | false => exact hnext _ _ hafter.inv (hafter.same (.inr hout))
  | threw params | crashed | outOfFuel => exact hafter.inv

theorem new_engineInv {session : DsmSession W} : EngineInv sc (new session) :=
  ⟨⟨.inl ⟨rfl, rfl⟩, forall_mem_nil _, forall_mem_nil _⟩, forall_mem_nil _⟩

variable (hsc : ScriptOk sc) (hrun : RunSpec sc run) (h : EngineInv sc s) (ev : DsmEvent)

include hsc hrun h

theorem enterState_inv {target : StatePtr} (hdiag : s.place.currentDiag = some target.diag)
    (hst : sc.stateAt target = some st) {flags : DsmFlags} :
    EngineInv sc (enterState sc run target ev flags s).engine := by
  have hgo : EngineInv sc { s with place := { s.place with current := some target } } :=
    ⟨⟨.inr ⟨target, st, rfl, hdiag, hst⟩, h.ok.stack, h.ok.misses⟩, h.actions⟩
  rw [enterState, hst]
  refine thenRun_inv (hrun false st.preActions ev flags _
    (lists_of_stateAt hsc hst _ mem_cons_self) hgo) ?_
  intro flags t ht _
  split_ifs
  · exact ht
  · exact ht

theorem takeTransition_inv (hpost : ∀ e ∈ st.postActions, ElementOk sc false e)
    {tr : DsmTransition W} (htr : ∀ e ∈ tr.actions, ElementOk sc false e) :
    EngineInv sc (takeTransition sc run st tr ev s).engine := by
  rw [takeTransition]
  cases hdiag : s.place.currentDiag with
  | none => exact h
  | some d =>
    refine thenRun_inv (hrun false _ ev _ _ hpost h) fun flags t ht hplace => ?_
    refine thenRun_inv (hrun false _ ev _ _ htr ht) fun flags u hu hplace' => ?_
    -- the target was looked up in the diagram that is still the current one
    cases htarget : sc.targetAt d tr.toState with
    | none => exact hu
    | some target =>
      obtain ⟨rfl, st', hst'⟩ := stateAt_of_targetAt htarget
      refine enterState_inv hsc hrun hu ev ?_ hst'
      rw [hplace', hplace, hdiag]

omit h in
theorem tryTransitions_inv (hpost : ∀ e ∈ st.postActions, ElementOk sc false e)
    (isException : Bool) :
    ∀ {trs : List (DsmTransition W)} {s : DsmEngine W},
      (∀ tr ∈ trs, ∀ e ∈ tr.actions, ElementOk sc false e) → EngineInv sc s →
        EngineInv sc (tryTransitions sc run st ev isException trs s).engine
  | [], _, _, h => h
  | tr :: trs, s, htrs, h => by
    obtain ⟨htr, htrs⟩ := forall_mem_cons.1 htrs
    rw [tryTransitions]
    split_ifs
    · exact tryTransitions_inv hpost isException htrs h
    · generalize matchAll tr.precond s.session ev = res
      obtain ⟨sess, res⟩ := res
      have hsess : EngineInv sc { s with session := sess } := h.congr rfl rfl
      rcases res with params | matched
      · exact hsess
      · cases matched with
        | false => exact tryTransitions_inv hpost isException htrs hsess
        | true => exact takeTransition_inv hsc hrun hsess ev hpost htr

omit h in
theorem eventLoop_inv :
    ∀ (fuel : ℕ) (ev : DsmEvent) (isException : Bool) {s : DsmEngine W}, EngineInv sc s →
      EngineInv sc (eventLoop sc run fuel ev isException s).1
  | 0, _, _, _, h => h
  | fuel + 1, ev, isException, s, h => by
    rw [eventLoop]
    cases hcur : s.place.current.bind sc.stateAt with
    | none => exact h
    | some st =>
      obtain ⟨p, -, hst⟩ := bind_eq_some_iff.1 hcur
      have hlists := lists_of_stateAt hsc hst
      have hpost := hlists _ (mem_cons_of_mem _ mem_cons_self)
      have htrs : ∀ tr ∈ st.transitions, ∀ e ∈ tr.actions, ElementOk sc false e :=
        fun tr htr => hlists _
          (mem_cons_of_mem _ (mem_cons_of_mem _ (mem_map_of_mem htr)))
      have hinv := tryTransitions_inv hsc hrun ev hpost isException htrs h
      dsimp only
      generalize tryTransitions sc run st ev isException st.transitions s = r at hinv
      cases r.outcome with
      | returned b =>
        split_ifs
        · exact eventLoop_inv fuel _ _ hinv
        · exact hinv
        · exact hinv
      | threw params => exact eventLoop_inv fuel _ _ hinv
      | crashed | outOfFuel => exact hinv

omit hrun

theorem runEvent_inv {fuel : ℕ} {runException : Bool} :
    EngineInv sc (runEvent sc fuel ev runException s).1 := by
  rw [runEvent]
  split_ifs
  · exact h
  · exact eventLoop_inv hsc (runactions_spec hsc fuel) fuel ev runException h

theorem initEngine_inv {fuel : ℕ} {startDiagram : Str} {initEvent : EventType} :
    EngineInv sc (initEngine sc fuel startDiagram initEvent s).1 := by
  have hinv := (jumpDiag_spec hsc (runactions_spec hsc fuel) h ⟨initEvent, none⟩ startDiagram).1.inv
  rw [initEngine]
  generalize jumpDiag sc (runactions sc fuel) startDiagram ⟨initEvent, none⟩ s = r at hinv
  obtain ⟨t, o⟩ := r
  cases o with
  | returned b =>
    cases b with
    | true => exact runEvent_inv hsc hinv _
    | false => exact hinv
  | threw params => exact runEvent_inv hsc hinv _
  | crashed | outOfFuel => exact hinv

omit h in
theorem step_engineInv {ev : DsmEv} (h : EngineInv sc s) : EngineInv sc (s.step sc ev) := by
  cases ev with
  | init startDiagram initEvent fuel => exact initEngine_inv hsc h
  | event ev fuel => exact runEvent_inv hsc h ev

end Events

/-! ## Two scripts -/

/-- An action that calls a diagram. -/
def callAction (name : Str) : DsmAction Unit :=
  ⟨fun sess _ => (sess, .ok true), fun _ _ => (.Call, name)⟩

/-- A loop with one round. -/
def oneRound (body : List (DsmElement Unit)) : DsmElement Unit :=
  .arrayFor ⟨.Range, ['i'], ['0'], ['1']⟩ body

/-- A diagram `m`, whose transition from `a` to `b` has some actions, and a diagram `s` with a state
`c`. -/
def twoDiagrams (actions : List (DsmElement Unit)) : DsmScript Unit where
  diags := [⟨['m'], ['a'], [⟨['a'], [], [], [⟨[], actions, ['b'], false⟩]⟩, ⟨['b'], [], [], []⟩]⟩,
    ⟨['s'], ['c'], [⟨['c'], [], [], []⟩]⟩]
  resolveVars := fun text _ _ => text

theorem twoDiagrams_ok {actions : List (DsmElement Unit)}
    (h : ∀ e ∈ actions, ElementOk (twoDiagrams actions) false e) :
    ScriptOk (twoDiagrams actions) := by
  have hempty : ∀ (name : Str), ∀ es ∈ DsmState.lists (⟨name, [], [], []⟩ : DsmState Unit),
      ∀ e ∈ es, ElementOk (twoDiagrams actions) false e := fun name =>
    forall_mem_cons.2
      ⟨forall_mem_nil _, forall_mem_singleton.2 (forall_mem_nil _)⟩
  refine ⟨forall_mem_cons.2 ⟨some_ne_none 0, ?_⟩, forall_mem_cons.2 ⟨?_, ?_⟩⟩
  · exact forall_mem_singleton.2 (some_ne_none 0)
  · refine forall_mem_cons.2 ⟨?_, forall_mem_singleton.2 (hempty _)⟩
    exact forall_mem_cons.2 ⟨forall_mem_nil _, forall_mem_cons.2
      ⟨forall_mem_nil _, forall_mem_singleton.2 h⟩⟩
  · exact forall_mem_singleton.2 (forall_mem_singleton.2 (hempty _))

end Sems
