import Sems.OrdMap
import Sems.ParseCommon

/-!
# The state engine of the DSM

`DSMStateEngine` (`apps/dsm`) is the interpreter of scripts of state diagrams. An event is tried on
the transitions of the current state, and a transition that matches runs the actions of the state
that is left, its own, and those of the state that is entered. Actions stand in lists with
conditions and loops (`runactions`). An action can ask the engine to repost the event, to change the
diagram (`jumpDiag`, `callDiag`, `returnDiag`), or to break the list. A change of the diagram is
reported by the result of `runactions`, and then `runEvent` does not go to the target.

A pointer to a state is the place of its diagram and its place in the diagram. What an action or a
condition does is a function. Scripts can loop, so the interpreter has a number of steps to make.
-/

namespace Sems

/-- A `map<string, string>`. -/
abbrev StrMap := OrdMap Str Str

/-- `DSMCondition::EventType`. -/
inductive EventType where
  | Any | Start | Invite | SessionStart | Ringing | EarlySession | FailedCall | SipRequest
  | SipReply | BeforeDestroy | Hangup | Hold | UnHold | B2BOtherRequest | B2BOtherReply
  | B2BOtherBye | SessionTimeout | RtpTimeout | RemoteDisappeared | Key | Timer | NoAudio
  | PlaylistSeparator
  | DSMEvent | B2BEvent | DSMException | XmlrpcResponse | JsonRpcResponse | JsonRpcRequest | Startup
  | Reload | System | SIPSubscription | RTPTimeout | LegStateChange | BLegRefused | PutOnHold
  | ResumeHeld | CreateHoldRequest | HandleHoldReply | RelayInit | RelayInitUAC | RelayInitUAS
  | RelayFinalize | RelayOnSipRequest | RelayOnSipReply | RelayOnB2BRequest | RelayOnB2BReply
  deriving DecidableEq

/-- The event that is processed, with its parameters, if it has any. -/
structure DsmEvent where
  type : EventType
  params : Option StrMap

/-- The session : its variables, and everything else the actions use. -/
structure DsmSession (W : Type*) where
  var : StrMap
  world : W

/-- What an action asks of the engine. -/
inductive SEAction where
  | None
  | Repost
  | Jump
  | Call
  | Return
  | Break
  deriving DecidableEq

/-- An action. `execute` says whether the engine is to be modified, or throws the parameters of an
exception. -/
structure DsmAction (W : Type*) where
  execute : DsmSession W → DsmEvent → DsmSession W × Except StrMap Bool
  getSEAction : DsmSession W → DsmEvent → SEAction × Str

/-- A condition, which may change the session. -/
structure DsmCondition (W : Type*) where
  invert : Bool
  test : DsmSession W → DsmEvent → DsmSession W × Except StrMap Bool

/-- What a loop goes over. -/
inductive ForType where
  | Range
  | Array
  | Struct
  deriving DecidableEq

/-- The head of a loop : `for (k in array)`, `for (k, v in struct)`, or with a range from `v` up to
`arrayStruct`. -/
structure ForHead where
  forType : ForType
  k : Str
  v : Str
  arrayStruct : Str

/-- An element of a list of actions. -/
inductive DsmElement (W : Type*) where
  | action (a : DsmAction W)
  | conditionTree (conditions : List (DsmCondition W)) (runIfTrue runIfFalse : List (DsmElement W))
  | arrayFor (head : ForHead) (actions : List (DsmElement W))
  | other

/-- A transition to a state, given by its name. -/
structure DsmTransition (W : Type*) where
  precond : List (DsmCondition W)
  actions : List (DsmElement W)
  toState : Str
  isException : Bool

/-- A state with its actions and transitions. -/
structure DsmState (W : Type*) where
  name : Str
  preActions : List (DsmElement W)
  postActions : List (DsmElement W)
  transitions : List (DsmTransition W)

/-- A state diagram. -/
structure DsmDiagram (W : Type*) where
  name : Str
  initialState : Str
  states : List (DsmState W)

/-- The place of a state. -/
structure StatePtr where
  diag : ℕ
  idx : ℕ
  deriving DecidableEq

/-- Where a call returns to, and the actions left. -/
structure DsmStackElement (W : Type*) where
  diag : ℕ
  state : StatePtr
  actions : List (DsmElement W)

/-- Where the engine is. The top of the stack comes first. -/
structure DsmPlace (W : Type*) where
  currentDiag : Option ℕ
  current : Option StatePtr
  stack : List (DsmStackElement W)

/-- The engine with the session. `misses` are the places before and after each call of, or jump to,
a missing diagram. -/
structure DsmEngine (W : Type*) where
  place : DsmPlace W
  session : DsmSession W
  misses : List (DsmPlace W × DsmPlace W)

/-- The script, and `resolveVars`, which replaces the variables and parameters in a text. -/
structure DsmScript (W : Type*) where
  diags : List (DsmDiagram W)
  resolveVars : Str → DsmSession W → Option StrMap → Str

/-- How a call of the interpreter ends : it returns, throws a `DSMException`, ends with an unhandled
error, or has no steps left. -/
inductive DsmOutcome where
  | returned (res : Bool)
  | threw (params : StrMap)
  | crashed
  | outOfFuel

/-- The flags that are passed by reference. -/
structure DsmFlags where
  isConsumed : Bool
  doBreak : Bool

/-- What `runactions` leaves. -/
structure DsmRun (W : Type*) where
  engine : DsmEngine W
  flags : DsmFlags
  outcome : DsmOutcome

/-- A call of `runactions`. -/
abbrev RunActions (W : Type*) :=
  List (DsmElement W) → DsmEvent → DsmFlags → DsmEngine W → DsmRun W

variable {W : Type*}

/-! ## Diagrams -/

namespace DsmDiagram

/-- `DSMStateDiagram::getState`. -/
def getState (d : DsmDiagram W) (name : Str) : Option ℕ :=
  d.states.findIdx? fun st => st.name = name

/-- `DSMStateDiagram::getInitialState`. -/
def getInitialState (d : DsmDiagram W) : Option ℕ :=
  if d.initialState = [] then none else d.getState d.initialState

end DsmDiagram

namespace DsmScript

variable (sc : DsmScript W)

/-- The diagram with a name. -/
def findDiag (name : Str) : Option ℕ :=
  sc.diags.findIdx? fun d => d.name = name

/-- The state a pointer points to. -/
def stateAt (p : StatePtr) : Option (DsmState W) :=
  sc.diags[p.diag]?.bind fun d => d.states[p.idx]?

/-- The initial state of a diagram. -/
def initialAt (diag : ℕ) : Option StatePtr :=
  (sc.diags[diag]?.bind DsmDiagram.getInitialState).map (StatePtr.mk diag)

/-- `current_diag->getState(name)`. -/
def targetAt (diag : ℕ) (name : Str) : Option StatePtr :=
  (sc.diags[diag]?.bind fun d => d.getState name).map (StatePtr.mk diag)

end DsmScript

/-! ## Conditions -/

/-- `_match` of one condition after the other, up to the first that does not match. -/
def matchAll : List (DsmCondition W) → DsmSession W → DsmEvent → DsmSession W × Except StrMap Bool
  | [], sess, _ => (sess, .ok true)
  | con :: cons, sess, ev =>
    match con.test sess ev with
    | (sess, .error params) => (sess, .error params)
    | (sess, .ok matched) =>
      if (if con.invert then !matched else matched) then matchAll cons sess ev
      else (sess, .ok false)

/-! ## Loops -/

/-- A name without the dollar sign it may start with. -/
def stripDollar (name : Str) : Str :=
  if name.head? = some '$' then name.tail else name

/-- The entries from `lower_bound` on. -/
def lowerBound (m : StrMap) (key : Str) : List (Str × Str) :=
  m.entries.dropWhile fun e => e.1 < key

/-- The members of a struct, with their values. `substr` throws if a variable's name ends with the
struct's. -/
def structValues (name : Str) : List (Str × Str) → Option (List (Str × Str))
  | [] => some []
  | e :: es =>
    if name.isPrefixOf e.1 then
      if e.1.length < name.length + 1 then none
      else (structValues name es).map fun vals => (e.1.drop (name.length + 1), e.2) :: vals
    else some []

/-- The name of an element of an array. -/
def arrayIndex (name : Str) (i : ℕ) : Str :=
  name ++ '[' :: (Nat.toDigits 10 i ++ [']'])

/-- The values of an array, from the index `i` on. -/
def arrayValues (name : Str) : ℕ → List (Str × Str) → List Str
  | _, [] => []
  | i, e :: es =>
    if (arrayIndex name i).isPrefixOf e.1 then e.2 :: arrayValues name i es
    else if (arrayIndex name (i + 1)).isPrefixOf e.1 then e.2 :: arrayValues name (i + 1) es
    else []

/-- The numbers of a range, upwards or downwards. -/
def rangeValues (lower upper : ℤ) : List ℤ :=
  if lower < upper then (List.range (upper - lower).toNat).map fun i : ℕ => lower + i
  else (List.range (lower - upper).toNat).map fun i : ℕ => lower - i

variable (sc : DsmScript W)

/-- The bounds of a range, that is empty if one of them is not a number. -/
def rangeBounds (head : ForHead) (sess : DsmSession W) (ev : DsmEvent) : ℤ × ℤ :=
  match str2int (sc.resolveVars head.v sess ev.params) with
  | none => (0, 0)
  | some lower =>
    match str2int (sc.resolveVars head.arrayStruct sess ev.params) with
    | none => (0, 0)
    | some upper => (lower, upper)

/-- The variables that are set in the rounds of a loop. -/
def forRounds (head : ForHead) (sess : DsmSession W) (ev : DsmEvent) : Option
    (List (List (Str × Str))) :=
  let arrayName := stripDollar head.arrayStruct
  let kName := stripDollar head.k
  match head.forType with
  | .Struct => (structValues arrayName (lowerBound sess.var arrayName)).map fun vals =>
      vals.map fun kv => [(kName, kv.1), (stripDollar head.v, kv.2)]
  | .Array => some ((arrayValues arrayName 0
      (lowerBound sess.var (arrayIndex arrayName 0))).map fun v => [(kName, v)])
  | .Range =>
    let bounds := rangeBounds sc head sess ev
    some ((rangeValues bounds.1 bounds.2).map fun i => [(kName, long2str i)])

/-- The names of the counters. -/
def forCounters (head : ForHead) : List Str :=
  match head.forType with
  | .Struct => [stripDollar head.k, stripDollar head.v]
  | _ => [stripDollar head.k]

/-- A loop that is left out because of an empty name. -/
def ForHead.isEmpty (head : ForHead) : Bool :=
  head.k = [] || (head.forType ≠ .Range && head.arrayStruct = [])

namespace DsmSession

/-- Variables of the session. -/
def setVars (sess : DsmSession W) (vals : List (Str × Str)) : DsmSession W :=
  { sess with var := vals.foldl (fun m kv => m.insert kv.1 kv.2) sess.var }

/-- The counters get back the values they had in `old`. -/
def restore (sess : DsmSession W) (names : List Str) (old : StrMap) : DsmSession W :=
  { sess with
    var := names.foldl (fun m name =>
      match old.find? name with
      | some v => m.insert name v
      | none => m.erase name) sess.var }

end DsmSession

/-- The rounds of a loop. Only a break ends it early : another result of the list is not looked
at. -/
def forLoop (run : RunActions W) (body : List (DsmElement W)) (ev : DsmEvent) :
    List (List (Str × Str)) → Bool → DsmEngine W → DsmRun W
  | [], isConsumed, s => ⟨s, ⟨isConsumed, false⟩, .returned false⟩
  | vals :: rounds, isConsumed, s =>
    let r := run body ev ⟨isConsumed, false⟩ { s with session := s.session.setVars vals }
    match r.outcome with
    | .returned _ =>
      if r.flags.doBreak then ⟨r.engine, r.flags, .returned false⟩
      else forLoop run body ev rounds r.flags.isConsumed r.engine
    | _ => r

variable (run : RunActions W)

/-- A loop. Its counters are restored at its end. -/
def runFor (head : ForHead) (body : List (DsmElement W)) (ev : DsmEvent) (flags : DsmFlags)
    (s : DsmEngine W) : DsmRun W :=
  match forRounds sc head s.session ev with
  | none => ⟨s, flags, .crashed⟩
  | some rounds =>
    let r := forLoop run body ev rounds flags.isConsumed s
    match r.outcome with
    | .returned _ =>
      let session := r.engine.session.restore (forCounters head) s.session.var
      ⟨{ r.engine with session := session }, ⟨r.flags.isConsumed, flags.doBreak⟩, .returned false⟩
    | o => ⟨r.engine, ⟨r.flags.isConsumed, flags.doBreak⟩, o⟩

/-! ## Changing the diagram -/

/-- `jumpDiag` : the initial state of another diagram is entered. -/
def jumpDiag (name : Str) (ev : DsmEvent) (s : DsmEngine W) : DsmEngine W × DsmOutcome :=
  match sc.findDiag name with
  | none => (s, .returned false)
  | some d =>
    let current := sc.initialAt d
    let s := { s with place := { s.place with currentDiag := some d, current := current } }
    match current.bind sc.stateAt with
    | none => (s, .returned false)
    | some st =>
      let r := run st.preActions ev ⟨true, false⟩ s
      match r.outcome with
      | .returned _ => (r.engine, .returned true)
      | o => (r.engine, o)

/-- The rest of the list of actions goes on the stack. -/
def callDiag (name : Str) (rest : List (DsmElement W)) (ev : DsmEvent) (s : DsmEngine W) :
    DsmEngine W × DsmOutcome :=
  match s.place.current, s.place.currentDiag with
  | some current, some diag =>
    jumpDiag sc run name ev
      { s with place := { s.place with stack := ⟨diag, current, rest⟩ :: s.place.stack } }
  | _, _ => (s, .returned false)

/-- `returnDiag` : the actions left are run in the old state. -/
def returnDiag (ev : DsmEvent) (s : DsmEngine W) : DsmEngine W × DsmOutcome :=
  match s.place.stack with
  | [] => (s, .returned false)
  | top :: stack =>
    let r := run top.actions ev ⟨false, false⟩
      { s with place := ⟨some top.diag, some top.state, stack⟩ }
    match r.outcome with
    -- the names of the state and of its diagram are logged
    | .returned _ =>
      if r.engine.place.current.isNone then (r.engine, .crashed) else (r.engine, .returned true)
    | o => (r.engine, o)

/-- A diagram that does not exist is noted. -/
def noteMiss (name : Str) (before : DsmEngine W) (after : DsmEngine W × DsmOutcome) : DsmEngine W ×
    DsmOutcome :=
  match sc.findDiag name with
  | some _ => after
  | none => ({ after.1 with misses := after.1.misses ++ [(before.place, after.1.place)] }, after.2)

/-! ## Lists of actions -/

/-- What `getSEAction` of an action asks for. With `returned true` the list ends here. -/
def runSEAction (se : SEAction × Str) (rest : List (DsmElement W)) (ev : DsmEvent)
    (flags : DsmFlags) (s : DsmEngine W) : DsmRun W :=
  match se.1 with
  | .Repost => ⟨s, { flags with isConsumed := false }, .returned false⟩
  | .Jump =>
    let r := noteMiss sc se.2 s (jumpDiag sc run se.2 ev s)
    ⟨r.1, flags, r.2⟩
  | .Call =>
    let r := noteMiss sc se.2 s (callDiag sc run se.2 rest ev s)
    ⟨r.1, flags, r.2⟩
  | .Return =>
    let r := returnDiag run ev s
    ⟨r.1, flags, r.2⟩
  | .Break => ⟨s, { flags with doBreak := true }, .returned true⟩
  | .None => ⟨s, flags, .returned false⟩

/-- An action, with the rest of its list. -/
def runAction (a : DsmAction W) (rest : List (DsmElement W)) (ev : DsmEvent) (flags : DsmFlags)
    (s : DsmEngine W) : DsmRun W :=
  match a.execute s.session ev with
  | (sess, .error params) => ⟨{ s with session := sess }, flags, .threw params⟩
  | (sess, .ok false) => ⟨{ s with session := sess }, flags, .returned false⟩
  | (sess, .ok true) =>
    runSEAction sc run (a.getSEAction sess ev) rest ev flags { s with session := sess }

/-- An `if` of the script. -/
def runConditionTree (conditions : List (DsmCondition W))
    (runIfTrue runIfFalse : List (DsmElement W)) (ev : DsmEvent) (flags : DsmFlags)
    (s : DsmEngine W) : DsmRun W :=
  match matchAll conditions s.session ev with
  | (sess, .error params) => ⟨{ s with session := sess }, flags, .threw params⟩
  | (sess, .ok matched) =>
    run (if matched then runIfTrue else runIfFalse) ev flags { s with session := sess }

/-- One element of a list, with the rest of it. -/
def runElement (e : DsmElement W) (rest : List (DsmElement W)) (ev : DsmEvent) (flags : DsmFlags)
    (s : DsmEngine W) : DsmRun W :=
  match e with
  | .action a => runAction sc run a rest ev flags s
  | .conditionTree conditions runIfTrue runIfFalse =>
    runConditionTree run conditions runIfTrue runIfFalse ev flags s
  | .arrayFor head body =>
    if head.isEmpty then ⟨s, flags, .returned false⟩ else runFor sc run head body ev flags s
  | .other => ⟨s, flags, .returned false⟩

/-- `runactions`, with `fuel` steps to make. -/
def runactions (sc : DsmScript W) : ℕ → RunActions W
  | 0, _, _, flags, s => ⟨s, flags, .outOfFuel⟩
  | _ + 1, [], _, flags, s => ⟨s, flags, .returned false⟩
  | fuel + 1, e :: rest, ev, flags, s =>
    let r := runElement sc (runactions sc fuel) e rest ev flags s
    match r.outcome with
    | .returned false => runactions sc fuel rest ev r.flags r.engine
    | _ => r

/-! ## Events -/

/-- The list is run, and if it does not end the transition, then `next`. -/
def thenRun (r : DsmRun W) (next : DsmFlags → DsmEngine W → DsmRun W) : DsmRun W :=
  match r.outcome with
  | .returned false => next ⟨r.flags.isConsumed, false⟩ r.engine
  | _ => r

/-- The state is entered. The name of the state is logged in the end. -/
def enterState (target : StatePtr) (ev : DsmEvent) (flags : DsmFlags) (s : DsmEngine W) :
    DsmRun W :=
  let s := { s with place := { s.place with current := some target } }
  match sc.stateAt target with
  | none => ⟨s, flags, .crashed⟩
  | some st =>
    thenRun (run st.preActions ev flags s) fun flags s =>
      if s.place.current.isNone then ⟨s, flags, .crashed⟩ else ⟨s, flags, .returned false⟩

/-- A transition that matches, from the state `st`. -/
def takeTransition (st : DsmState W) (tr : DsmTransition W) (ev : DsmEvent) (s : DsmEngine W) :
    DsmRun W :=
  match s.place.currentDiag with
  | none => ⟨s, ⟨true, false⟩, .crashed⟩
  | some d =>
    thenRun (run st.postActions ev ⟨true, false⟩ s) fun flags s =>
      thenRun (run tr.actions ev flags s) fun flags s =>
        match sc.targetAt d tr.toState with
        | none => ⟨s, flags, .returned false⟩
        | some target => enterState sc run target ev flags s

/-- The transitions of the state `st`, up to the first that matches. -/
def tryTransitions (sc : DsmScript W) (run : RunActions W) (st : DsmState W) (ev : DsmEvent)
    (isException : Bool) : List (DsmTransition W) → DsmEngine W → DsmRun W
  | [], s => ⟨s, ⟨true, false⟩, .returned false⟩
  | tr :: trs, s =>
    if tr.isException ≠ isException then tryTransitions sc run st ev isException trs s
    else
      match matchAll tr.precond s.session ev with
      | (sess, .error params) => ⟨{ s with session := sess }, ⟨true, false⟩, .threw params⟩
      | (sess, .ok false) => tryTransitions sc run st ev isException trs { s with session := sess }
      | (sess, .ok true) => takeTransition sc run st tr ev { s with session := sess }

/-- The loop of `runEvent`. An exception is processed as an event of its own. -/
def eventLoop (sc : DsmScript W) (run : RunActions W) :
    ℕ → DsmEvent → Bool → DsmEngine W → DsmEngine W × DsmOutcome
  | 0, _, _, s => (s, .outOfFuel)
  | fuel + 1, ev, isException, s =>
    match s.place.current.bind sc.stateAt with
    | none => (s, .crashed)
    | some st =>
      let r := tryTransitions sc run st ev isException st.transitions s
      match r.outcome with
      | .returned _ =>
        if r.flags.isConsumed = false then eventLoop sc run fuel ev isException r.engine
        -- the name of the state is logged
        else if r.engine.place.current.isNone then (r.engine, .crashed)
        else (r.engine, .returned true)
      | .threw params => eventLoop sc run fuel ⟨.DSMException, some params⟩ true r.engine
      | o => (r.engine, o)

/-- `runEvent`, with fuel for the loops. -/
def runEvent (fuel : ℕ) (ev : DsmEvent) (runException : Bool) (s : DsmEngine W) : DsmEngine W ×
    DsmOutcome :=
  if s.place.current.isNone || s.place.currentDiag.isNone then (s, .returned true)
  else eventLoop sc (runactions sc fuel) fuel ev runException s

/-- `init` of the engine. -/
def initEngine (fuel : ℕ) (startDiagram : Str) (initEvent : EventType) (s : DsmEngine W) : DsmEngine
    W × DsmOutcome :=
  match jumpDiag sc (runactions sc fuel) startDiagram ⟨initEvent, none⟩ s with
  | (s, .returned true) => runEvent sc fuel ⟨initEvent, none⟩ false s
  | (s, .threw params) => runEvent sc fuel ⟨initEvent, some params⟩ true s
  | r => r

/-- What happens to an engine. -/
inductive DsmEv where
  | init (startDiagram : Str) (initEvent : EventType) (fuel : ℕ)
  | event (ev : DsmEvent) (fuel : ℕ)

namespace DsmEngine

/-- A new engine. -/
def new (session : DsmSession W) : DsmEngine W :=
  ⟨⟨none, none, []⟩, session, []⟩

/-- A call from outside. -/
def step (sc : DsmScript W) (s : DsmEngine W) : DsmEv → DsmEngine W
  | .init startDiagram initEvent fuel => (initEngine sc fuel startDiagram initEvent s).1
  | .event ev fuel => (runEvent sc fuel ev false s).1

end DsmEngine

end Sems
