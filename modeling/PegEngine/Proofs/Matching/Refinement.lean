import PegEngine.Proofs.Matching.ByValue
import PegEngine.Proofs.Matching.Isolation

/-!
Contract: the engine matches by value.

The engine changes one list of bindings and one stack table in place, records the changes of the
stacks, and takes back by lengths. Without function patterns this is the same as handing bindings
and entries on by value. The nesting that is left to the engine is the room of the reference.

Owns:
- `Refines`, for actions inside a pattern call, with one lemma for each kind of node;
- `guarded_refines` and `call_refines`, for whole pattern calls.
-/

namespace PegEngine

namespace Matching

variable {α β : Type}

/-- The end of an action by value. Its error is that of a place inside `within`. -/
def shown (view : α → ByValue.Store → β) (within : Option String) :
    EStateM.Result MatchError MatchState α → Except MatchError β
  | .ok value state => .ok (view value state.store)
  | .error error _ => .error (error.inPattern within)

/-- An outcome together with the store that a match gives back. -/
def withStore (outcome : Option Match) (store : ByValue.Store) : Option (Match × ByValue.Store) :=
  outcome.map (·, store)

/-- At a nesting of `depth` the action ends as the reference does. -/
def Refines (depth : Nat) (within : Option String) (view : α → ByValue.Store → β)
    (action : MatchM α) (reference : ByValue.Store → Except MatchError β) : Prop :=
  ∀ state, state.depth = depth → shown view within (action state) = reference state.store

/-- A pattern call ends as the reference does, and what it leaves behind is isolated. -/
def CallRefines (depth : Nat) (within : Option String) (action : MatchM (Option Match))
    (reference : ByValue.Store → ByValue.Outcome) : Prop :=
  ∀ state, state.depth = depth → shown withStore within (action state) = reference state.store ∧
    Isolated state (answerOf (action state)) (stateOf (action state))

namespace Refines

variable {depth : Nat} {within : Option String} {view : α → ByValue.Store → β}

theorem pure (value : α) :
    Refines depth within view (Pure.pure value) fun store => .ok (view value store) :=
  fun _ _ => rfl

theorem throw (error : MatchError) :
    Refines depth within view (MonadExcept.throw error) fun _ => .error (error.inPattern within) :=
  fun _ _ => rfl

theorem get_bind {next : MatchState → MatchM α} {reference : ByValue.Store → Except MatchError β}
    (rest : ∀ state, shown view within (next state state) = reference state.store) :
    Refines depth within view (get >>= next) reference :=
  fun state _ => rest state

theorem modify_pure {change : MatchState → MatchState} {value : α}
    {changed : ByValue.Store → ByValue.Store}
    (same : ∀ state : MatchState, (change state).store = changed state.store) :
    Refines depth within view (modify change >>= fun _ => Pure.pure value)
      fun store => .ok (view value (changed store)) := by
  intro state _
  change Except.ok (view value (change state).store) = .ok (view value (changed state.store))
  rw [same]

/-- After a call that did not match, the store is the one held before it. -/
theorem after {child : MatchM (Option Match)} {reference : ByValue.Store → ByValue.Outcome}
    {next : Option Match → MatchM α}
    {rest : Option Match → ByValue.Store → Except MatchError β}
    (call : CallRefines depth within child reference)
    (later : ∀ outcome, Refines depth within view (next outcome) (rest outcome)) :
    Refines depth within view (child >>= next)
      fun store => ByValue.after (reference store) store rest := by
  intro state atDepth
  obtain ⟨ends, isolated⟩ := call state atDepth
  have sameDepth := isolated.extends.depth.trans atDepth
  change shown view within ((child >>= next) state) = ByValue.after (reference state.store) _ rest
  rw [bind_apply, ← ends]
  cases ended : child state with
  | error error reached => rfl
  | ok outcome reached =>
      rw [ended] at isolated sameDepth
      have goesOn := later outcome reached sameDepth
      cases outcome with
      | some m => exact goesOn
      | none =>
          cases isolated with
          | missed restored =>
              have held : reached.store = state.store := by
                apply ByValue.Store.ext
                · exact restored.bindings
                · exact funext restored.stackTable.entries
              rw [← held]
              exact goesOn

end Refines

/-! ## Nodes -/

section Nodes

variable {depth : Nat} {within : Option String} {call : Caller} {eval : ByValue.Evaluator}
  {i : Nat}

theorem matchSequence_refines {items : List PatternId}
    (calls : ∀ item ∈ items, ∀ index, CallRefines depth within (call item index) (eval item index))
    (soFar : Match) :
    Refines depth within withStore (matchSequence call items soFar)
      (ByValue.sequence eval items soFar) := by
  induction items generalizing soFar with
  | nil => exact .pure _
  | cons item rest inductionHypothesis =>
      refine .after (calls item (by simp) _) fun outcome => ?_
      cases outcome with
      | none => exact .pure _
      | some m =>
          exact inductionHypothesis (fun other member => calls other (by simp [member])) _

theorem matchChoice_refines {items : List PatternId}
    (calls : ∀ item ∈ items, ∀ index,
      CallRefines depth within (call item index) (eval item index)) :
    Refines depth within withStore (matchChoice call i items) (ByValue.choice eval i items) := by
  induction items with
  | nil => exact .pure _
  | cons item rest inductionHypothesis =>
      refine .after (calls item (by simp) _) fun outcome => ?_
      cases outcome with
      | none => exact inductionHypothesis fun other member => calls other (by simp [member])
      | some m => exact .pure _

/-- The iterations so far, and the store after them. -/
def countWithStore (done : Nat × Match) (store : ByValue.Store) : Nat × Match × ByValue.Store :=
  (done.1, done.2, store)

theorem matchUpTo_refines {body : PatternId}
    (calls : ∀ index, CallRefines depth within (call body index) (eval body index))
    (most done : Nat) (soFar : Match) :
    Refines depth within countWithStore (matchUpTo call body most done soFar)
      (ByValue.upTo eval body most done soFar) := by
  induction most generalizing done soFar with
  | zero => exact .pure _
  | succ most inductionHypothesis =>
      refine .after (calls _) fun outcome => ?_
      cases outcome with
      | none => exact .pure _
      | some m => exact inductionHypothesis _ _

theorem matchAtLeast_refines {body : PatternId}
    (calls : ∀ index, CallRefines depth within (call body index) (eval body index))
    (minimum left done : Nat) (soFar : Match) :
    Refines depth within withStore (matchAtLeast call body minimum left done soFar)
      (ByValue.atLeast eval body minimum left done soFar) := by
  induction left generalizing done soFar with
  | zero =>
      intro state atDepth
      unfold matchAtLeast ByValue.atLeast
      refine Refines.after (calls _) (fun outcome => ?_) state atDepth
      cases outcome with
      | none => exact .pure _
      | some m =>
          dsimp only
          split <;> exact .pure _
  | succ left inductionHypothesis =>
      intro state atDepth
      unfold matchAtLeast ByValue.atLeast
      refine Refines.after (calls _) (fun outcome => ?_) state atDepth
      cases outcome with
      | none => exact .pure _
      | some m =>
          dsimp only
          split
          · exact .pure _
          · exact inductionHypothesis _ _

theorem matchRepetition_refines {text : Text} {body : PatternId}
    (calls : ∀ index, CallRefines depth within (call body index) (eval body index))
    (count : RepeatCount) :
    Refines depth within withStore (matchRepetition text call i body count)
      fun store => ByValue.repetition eval i text body store count := by
  cases count with
  | atLeast minimum => exact matchAtLeast_refines calls _ _ _ _
  | atMost maximum =>
      intro state atDepth
      have ends := matchUpTo_refines calls maximum 0 (text.matchOver i i) state atDepth
      simp only [matchRepetition, ByValue.repetition, bind_apply, ← ends]
      cases matchUpTo call body maximum 0 (text.matchOver i i) state <;> rfl
  | exactly count =>
      intro state atDepth
      have ends := matchUpTo_refines calls count 0 (text.matchOver i i) state atDepth
      simp only [matchRepetition, ByValue.repetition, bind_apply, ← ends]
      cases matchUpTo call body count 0 (text.matchOver i i) state with
      | error error reached => rfl
      | ok result reached =>
          change Except.ok (withStore (if result.1 = count then some result.2 else none) _) =
            .ok (if result.1 = count then some (result.2, reached.store) else none)
          split <;> rfl

theorem matchReference_refines {graph : Graph} {name : String} {cell : CellId}
    (calls : ∀ rule, graph.target? cell = some rule → ∀ index,
      CallRefines depth within (call rule index) (eval rule index)) :
    Refines depth within withStore (matchReference graph call i name cell)
      (ByValue.reference eval i graph cell) := by
  intro state atDepth
  unfold matchReference ByValue.reference
  cases target : graph.target? cell with
  | none => rfl
  | some rule => exact (calls rule target i state atDepth).1

theorem matchBackReference_refines {text : Text} {name : String} :
    Refines depth within withStore (matchBackReference text i name)
      (ByValue.backReference within i text name) := by
  refine .get_bind fun state => ?_
  cases bound : state.bindings.lookup? name with
  | none =>
      have sameBound : state.store.bindings.lookup? name = none := bound
      simp only [ByValue.backReference, sameBound]
      rfl
  | some value =>
      have sameBound : state.store.bindings.lookup? name = some value := bound
      simp only [ByValue.backReference, sameBound]
      rfl

theorem store_bind (state : MatchState) (name : String) (value : Capture) :
    { state with bindings := state.bindings.bind name value }.store =
      state.store.bind name value := rfl

theorem store_pushAll (state : MatchState) (stack : String) (values : List Capture) :
    { state with stackTable := state.stackTable.pushAll stack values }.store =
      state.store.pushAll stack values := by
  apply ByValue.Store.ext
  · rfl
  · funext other
    exact StackTable.entries_pushAll state.stackTable stack other values

theorem matchBackCapture_refines {name : String} {body : PatternId} {index : Option Int}
    (calls : ∀ index, CallRefines depth within (call body index) (eval body index)) :
    Refines depth within withStore (matchBackCapture call i name body index)
      (ByValue.backCapture eval within i name body index) := by
  refine .after (calls i) fun outcome => ?_
  cases outcome with
  | none => exact .pure _
  | some m =>
      cases index with
      | none => exact .modify_pure fun state => store_bind state name _
      | some index =>
          dsimp only [boundValue]
          cases m.capture? index with
          | none => exact .throw _
          | some value => exact .modify_pure fun state => store_bind state name value

theorem matchStackCapture_refines {stack : String} {body : PatternId}
    (calls : ∀ index, CallRefines depth within (call body index) (eval body index)) :
    Refines depth within withStore (matchStackCapture call i stack body)
      (ByValue.stackCapture eval i stack body) := by
  refine .after (calls i) fun outcome => ?_
  cases outcome with
  | none => exact .pure _
  | some m => exact .modify_pure fun state => store_pushAll state stack m.captures

theorem matchStackPop_refines {text : Text} {stack : String} {count : Nat} :
    Refines depth within withStore (matchStackPop text i stack count)
      (ByValue.stackPop within i text stack count) := by
  intro state _
  have size : state.stackTable.size stack = (state.store.entries stack).length :=
    StackTable.size_eq_length state.stackTable stack
  unfold ByValue.stackPop
  rw [← size]
  by_cases few : state.stackTable.size stack < count
  · have refused : state.stackTable.popMany stack count i =
        .error (.stackUnderflow stack count (state.stackTable.size stack) i none) := if_pos few
    simp only [matchStackPop, bind_apply, get_apply, refused, orThrow_error, if_pos few]
    rfl
  · have popped : state.stackTable.popMany stack count i =
        .ok (state.stackTable.popUpTo stack count) := if_neg few
    have store : { state with stackTable := (state.stackTable.popUpTo stack count).2 }.store =
        state.store.drop stack count := by
      apply ByValue.Store.ext
      · rfl
      · funext other
        exact StackTable.entries_popUpTo state.stackTable stack other count
    simp only [matchStackPop, bind_apply, get_apply, popped, orThrow_ok, modify_apply, if_neg few]
    rw [← store]
    rfl

theorem matchTransform_refines {text : Text} {body : PatternId} {change : Transform}
    (calls : ∀ index, CallRefines depth within (call body index) (eval body index)) :
    Refines depth within withStore (matchTransform text call i body change)
      (ByValue.transform eval i text body change) := by
  refine .after (calls i) fun outcome => ?_
  cases outcome with
  | none => exact .pure _
  | some m =>
      dsimp only
      cases change m with
      | none => exact .pure _
      | some transformed =>
          dsimp only
          cases checked : checkSpan text i transformed with
          | ok m => exact .pure _
          | error error =>
              rw [checkSpan_error checked]
              exact .throw _

/-- Every kind of node but functions ends as the reference does, if the calls that it makes do. -/
theorem matchKind_refines {setup : Setup} {kind : Kind}
    (noFunction : ∀ callback, kind ≠ .function callback)
    (calls : ∀ child ∈ kind.children, ∀ index,
      CallRefines depth within (call child index) (eval child index))
    (rules : ∀ name cell rule, kind = .reference name cell →
      setup.graph.target? cell = some rule → ∀ index,
        CallRefines depth within (call rule index) (eval rule index)) :
    Refines depth within withStore (matchKind setup call i kind)
      (ByValue.kind setup eval within i kind) := by
  have own : ∀ child, kind.children = [child] → ∀ index,
      CallRefines depth within (call child index) (eval child index) :=
    fun child only => calls child (by simp [only])
  cases kind with
  | literal | charSet | chars | rest | constant | startOfLine | endOfLine | value | position
  | line | column => exact .pure _
  | function callback => exact absurd rfl (noFunction callback)
  | capture body | group body _ | negative body | positive body | select body _ _ =>
      exact .after (own body rfl i) fun _ => .pure _
  | backReference name => exact matchBackReference_refines
  | backCapture name body index => exact matchBackCapture_refines (own body rfl)
  | stackCapture stack body => exact matchStackCapture_refines (own body rfl)
  | stackPop stack count => exact matchStackPop_refines
  | stackMatch stack index expected => exact .get_bind fun _ => rfl
  | stackSize stack expected =>
      refine .get_bind fun state => ?_
      unfold ByValue.kind
      rw [StackTable.size_eq_length]
      rfl
  | sequence items => exact matchSequence_refines calls _
  | choice items => exact matchChoice_refines calls
  | repetition body count => exact matchRepetition_refines (own body rfl) count
  | reference name cell =>
      exact matchReference_refines fun rule target => rules name cell rule rfl target
  | transform body change => exact matchTransform_refines (own body rfl)

end Nodes

/-! ## Pattern calls -/

theorem store_report (setup : Setup) (pattern : PatternId) (index : Nat) (phase : Phase)
    (state : MatchState) : (state.report setup pattern index phase).store = state.store := by
  unfold MatchState.report
  split
  · rfl
  · dsimp only
    split <;> rfl

theorem store_settle (state : MatchState) : state.settle.store = state.store := by
  unfold MatchState.settle
  split <;> rfl

/-- The name nearest to the place of an error stays, whether names are added from the inside or
known from the outside. -/
theorem inPattern_orElse (error : MatchError) (inner outer : Option String) :
    (error.inPattern inner).inPattern outer = error.inPattern (inner <|> outer) := by
  cases error with
  | unboundBackCapture _ _ own => cases own <;> cases inner <;> rfl
  | stackUnderflow _ _ _ _ own => cases own <;> cases inner <;> rfl
  | captureIndexOutOfRange _ _ _ own => cases own <;> cases inner <;> rfl
  | _ => rfl

theorem guarded_refines {setup : Setup} {pattern : PatternId} {i : Nat} {within : Option String}
    {blamed : MatchError → Prop} {body : MatchM (Option Match)}
    {reference : ByValue.Store → ByValue.Outcome} {entry : MatchState}
    (grows : Grows blamed body)
    (refines : Refines (entry.depth + 1) (setup.graph.name? pattern <|> within) withStore body
      reference) :
    shown withStore within (guarded setup pattern i body entry) = reference entry.store := by
  have atDepth : (started setup pattern i entry).depth = entry.depth + 1 := depth_started
  have sameStore : (started setup pattern i entry).store = entry.store := store_report ..
  have shows := refines _ atDepth
  rw [sameStore] at shows
  rw [← shows]
  have ends := @enclosed_ends setup pattern i body _ grows entry
  rw [guarded_eq_settled]
  generalize enclosed setup pattern i body entry = result at ends ⊢
  cases ends with
  | @found m reached ended grown =>
      rw [ended]
      simp only [settled, shown, store_settle]
      change Except.ok (withStore (some m) (reached.report setup pattern i _).store) = _
      rw [store_report]
  | missed ended same =>
      rw [ended]
      rfl
  | failed ended same =>
      rw [ended]
      simp only [settled, shown, inPattern_orElse]

end Matching

/-- No function pattern can come up in a match of `pattern`. -/
def Graph.FunctionFree (graph : Graph) (pattern : PatternId) : Prop :=
  ∀ origin, graph.Reaches pattern origin → ∀ callback, graph.kind origin ≠ .function callback

namespace Graph.FunctionFree

variable {graph : Graph} {pattern next : PatternId}

theorem of_calls (free : graph.FunctionFree pattern) (step : graph.Calls pattern next) :
    graph.FunctionFree next :=
  fun origin reaches => free origin (.of_calls step reaches)

theorem lawful (free : graph.FunctionFree pattern) (text : Text) : graph.Lawful text pattern :=
  fun origin callback reaches found => absurd found (free origin reaches callback)

/-- A pattern is free of functions when it is none and those that it leads to are. -/
theorem of_leads (noFunction : ∀ callback, graph.kind pattern ≠ .function callback)
    (each : ∀ next, graph.Leads pattern next → graph.FunctionFree next) :
    graph.FunctionFree pattern := by
  intro origin reaches
  cases Relation.ReflTransGen.cases_head reaches with
  | inl same => exact same ▸ noFunction
  | inr first =>
      obtain ⟨next, calls, rest⟩ := first
      rcases calls with leads | ⟨callback, _, _, isFunction, _⟩
      · exact each next leads origin rest
      · exact absurd isFunction (noFunction callback)

theorem of_kind {kind : Kind} (same : graph.kind pattern = kind)
    (noFunction : ∀ callback, kind ≠ .function callback)
    (noReference : ∀ name cell, kind ≠ .reference name cell)
    (each : ∀ child ∈ kind.children, graph.FunctionFree child) : graph.FunctionFree pattern := by
  refine of_leads (same ▸ noFunction) fun next leads => ?_
  rcases leads with child | ⟨name, cell, reference, _⟩
  · exact each next (same ▸ child)
  · exact absurd (same.symm.trans reference) (noReference name cell)

end Graph.FunctionFree

namespace Matching

/-- Without function patterns a pattern call ends as the reference does. -/
theorem call_refines (setup : Setup) (room : Nat) {pattern : PatternId}
    (free : setup.graph.FunctionFree pattern) (within : Option String) (index : Nat)
    {state : MatchState} (left : setup.limit - state.depth = room) :
    shown withStore within (call setup room pattern index state) =
      ByValue.eval setup room within pattern index state.store := by
  induction room generalizing pattern within index state with
  | zero => rfl
  | succ room inductionHypothesis =>
      have nested : ∀ next, setup.graph.Calls pattern next → ∀ index,
          CallRefines (state.depth + 1) (setup.graph.name? pattern <|> within)
            (call setup room next index)
            (ByValue.eval setup room (setup.graph.name? pattern <|> within) next index) := by
        intro next step index reached atDepth
        have under : 0 < reached.depth := by omega
        exact ⟨inductionHypothesis (free.of_calls step) _ index (by omega),
          (call_isolated setup room ((free.of_calls step).lawful _) index under).1⟩
      have grows := matchKind_isolated (Nat.min_le_right index setup.text.length) (free.lawful _)
        fun next step index state under =>
          call_isolated setup room ((free.of_calls step).lawful _) index under
      have notFull : ¬ setup.limit ≤ state.depth := by omega
      simp only [call, if_neg notFull]
      refine guarded_refines grows (matchKind_refines (free pattern .refl) ?_ ?_)
      · exact fun child member => nested child (Or.inl (Or.inl member))
      · exact fun name cell rule kind target =>
          nested rule (Or.inl (Graph.leads_of_target? kind target))

end Matching

/-- What a match has left in bindings and stacks. -/
def MatchRun.store (run : MatchRun) : ByValue.Store where
  bindings := run.input.bindings
  entries := run.context.stackTable.entries

namespace Graph

variable {graph : Graph} {pattern : PatternId}

/-- The match by value that a match in a context amounts to. -/
def matchByValue (graph : Graph) (pattern : PatternId) (input : Input) (index : Nat)
    (context : Context) : ByValue.Outcome :=
  ByValue.eval (context.setup graph input.text) (context.config.limit - context.depth) none pattern
    index (context.state input).store

/-- A match ends as the match by value does. -/
theorem result_matchIn (free : graph.FunctionFree pattern) (input : Input) (index : Nat)
    (context : Context) :
    (graph.matchIn pattern input index context).result =
      (graph.matchByValue pattern input index context).map (·.map Prod.fst) := by
  have ends : Matching.shown Matching.withStore none _ =
      graph.matchByValue pattern input index context :=
    Matching.call_refines (context.setup graph input.text) _ free none index rfl
  rw [matchIn_eq, ← ends]
  dsimp only [MatchRun.ofState]
  cases Matching.call (context.setup graph input.text) (context.config.limit - context.depth)
    pattern index (context.state input) with
  | ok outcome reached => cases outcome <;> rfl
  | error error reached => cases error <;> simp [Matching.shown, Matching.answerOf,
      MatchError.inPattern, Except.map]

/-- A match leaves the store behind that the match by value gives back. -/
theorem store_matchIn_of_found (free : graph.FunctionFree pattern) {input : Input} {index : Nat}
    {context : Context} {m : Match} {store : ByValue.Store}
    (found : graph.matchByValue pattern input index context = .ok (some (m, store))) :
    (graph.matchIn pattern input index context).store = store := by
  have ends : Matching.shown Matching.withStore none _ =
      graph.matchByValue pattern input index context :=
    Matching.call_refines (context.setup graph input.text) _ free none index rfl
  rw [found] at ends
  rw [matchIn_eq]
  cases ended : Matching.call (context.setup graph input.text)
      (context.config.limit - context.depth) pattern index (context.state input) with
  | ok outcome reached =>
      rw [ended] at ends
      cases outcome with
      | none => cases ends
      | some other =>
          cases ends
          rfl
  | error error reached =>
      rw [ended] at ends
      cases ends

section Results

variable {input : Input} {context : Context} {i : Nat}

/-- How a match ends that leaves the store alone. -/
theorem result_of_still {outcome : Option Match} (free : graph.FunctionFree pattern)
    (ends : ∀ setup room store, setup = context.setup graph input.text →
      context.config.limit - context.depth = room →
        ByValue.eval setup room none pattern i store = ByValue.still outcome store) :
    (graph.matchIn pattern input i context).result = .ok outcome := by
  rw [result_matchIn free]
  unfold matchByValue
  rw [ends _ _ _ rfl rfl]
  cases outcome <;> rfl

/-- How a match of a node without sub-patterns ends that leaves the store alone. -/
theorem result_of_leaf {kind : Kind} {outcome : Option Match} (free : graph.FunctionFree pattern)
    (same : graph.kind pattern = kind) (room : context.depth < context.config.limit)
    (inside : i ≤ input.text.length)
    (ends : ∀ eval within store,
      ByValue.kind (context.setup graph input.text) eval within i kind store =
        ByValue.still outcome store) :
    (graph.matchIn pattern input i context).result = .ok outcome := by
  refine result_of_still free fun setup left store sameSetup enough => ?_
  subst sameSetup
  obtain ⟨room, rfl⟩ : ∃ room, left = room + 1 := ⟨left - 1, by omega⟩
  simp only [ByValue.eval, Context.setup, same, Nat.min_eq_left inside]
  exact ends _ _ _

end Results

/-- Changing one state in place, with what failed taken back, is matching by value: the outcome is
that of the reference evaluator. So are bindings and entries after a match, and otherwise they are
those from before. -/
theorem matchIn_refines_byValue (free : graph.FunctionFree pattern) (input : Input) (index : Nat)
    (context : Context) :
    let run := graph.matchIn pattern input index context
    let reference := graph.matchByValue pattern input index context
    run.result = reference.map (·.map Prod.fst) ∧
      (∀ m store, reference = .ok (some (m, store)) → run.store = store) ∧
      ((∀ m store, reference ≠ .ok (some (m, store))) →
        run.store = (context.state input).store) := by
  intro run reference
  have sameResult : run.result = reference.map (·.map Prod.fst) :=
    result_matchIn free input index context
  refine ⟨sameResult, fun m store found => store_matchIn_of_found free found, fun noMatch => ?_⟩
  have notFound : ∀ m, run.result ≠ .ok (some m) := by
    intro m found
    rw [sameResult] at found
    cases ended : reference with
    | error error =>
        rw [ended] at found
        cases found
    | ok outcome =>
        cases outcome with
        | none =>
            rw [ended] at found
            cases found
        | some pair => exact noMatch pair.1 pair.2 ended
  have isolates := (matchIn_isolated (free.lawful input.text) index context).1
  apply ByValue.Store.ext
  · exact isolates.bindings notFound
  · exact funext (isolates.entries notFound)

/-- A rule that refers to itself between a push and a pop. -/
def nesting : Graph where
  slots := #[
    some { kind := .literal ['a'] },
    some { kind := .capture 0 },
    some { kind := .stackCapture "open" 1 },
    some { kind := .reference "rule" 0 },
    some { kind := .stackPop "open" 1 },
    some { kind := .sequence [2, 3, 4] },
    some { kind := .choice [5, 0], name := some "rule" }]
  cells := #[.weak 6]

theorem matchIn_refines_byValue_nesting :
    nesting.FunctionFree 6 ∧
      (nesting.matchIn 6 (.ofString "aaa") 0 {}).result =
        (nesting.matchByValue 6 (.ofString "aaa") 0 {}).map (·.map Prod.fst) := by
  have free : nesting.FunctionFree 6 := by
    intro origin _ callback found
    match origin with
    | 0 | 1 | 2 | 3 | 4 | 5 | 6 => cases found
    | origin + 7 => cases found
  exact ⟨free, (matchIn_refines_byValue free (.ofString "aaa") 0 {}).1⟩

end Graph

end PegEngine
