import PegEngine.Proofs.Pattern.Recognition

/-!
Contract: what a pattern takes off the front of a text, by the characters that stand there.

A pattern that captures something is no scan, and what it matches may depend on what follows. The
laws here are about one text in front of the pattern, and about what may follow that text.

Owns:
- `Graph.Takes`, that a pattern takes certain characters in front of what may follow them, and
  `Graph.Fails`, that it does not match in front of others;
- `Graph.TakesAll` for the items of a sequence, and `Graph.TakesMany` for a repeated body;
- one law for each way to put patterns together.
-/

namespace PegEngine

/-- The text goes on behind characters that are ahead. -/
theorem Text.ahead_of_append {text : Text} {i : Nat} {taken rest : List Char}
    (ahead : text.ahead i = taken ++ rest) (inside : i ≤ text.length) :
    text.ahead (i + taken.length) = rest ∧ i + taken.length ≤ text.length := by
  have length := congrArg List.length ahead
  rw [length_ahead, List.length_append] at length
  refine ⟨?_, by omega⟩
  rw [← drop_ahead, ahead, List.drop_left]

namespace Graph

variable (graph : Graph)

/-- In front of what may follow, the pattern takes the characters and captures the values, wherever
in a text. It leaves the store alone and takes no more than `calls` nested calls. -/
def Takes (pattern : PatternId) (calls : Nat) (taken : List Char) (captures : List Capture)
    (mayFollow : List Char → Prop) : Prop :=
  ∀ ⦃text : Text⦄ ⦃i room : Nat⦄ ⦃rest : List Char⦄ (limit : Nat) (within : Option String)
    (store : ByValue.Store), text.ahead i = taken ++ rest → mayFollow rest → i ≤ text.length →
      calls ≤ room →
        ByValue.eval { graph, text, limit } room within pattern i store =
          .ok (some ({ source := text, start := i, stop := i + taken.length, captures }, store))

/-- In front of such characters the pattern does not match. -/
def Fails (pattern : PatternId) (calls : Nat) (before : List Char → Prop) : Prop :=
  ∀ ⦃text : Text⦄ ⦃i room : Nat⦄ (limit : Nat) (within : Option String) (store : ByValue.Store),
    before (text.ahead i) → i ≤ text.length → calls ≤ room →
      ByValue.eval { graph, text, limit } room within pattern i store = .ok none

/-- What `Takes` says, of all items of a sequence one after the other. -/
def TakesAll (items : List PatternId) (calls : Nat) (taken : List Char) (captures : List Capture)
    (mayFollow : List Char → Prop) : Prop :=
  ∀ ⦃text : Text⦄ ⦃soFar : Match⦄ ⦃room : Nat⦄ ⦃rest : List Char⦄ (limit : Nat)
    (within : Option String) (store : ByValue.Store), text.ahead soFar.stop = taken ++ rest →
      mayFollow rest → soFar.stop ≤ text.length → calls ≤ room →
        ByValue.sequence (ByValue.eval { graph, text, limit } room within) items soFar store =
          .ok (some ({ soFar with
            stop := soFar.stop + taken.length, captures := soFar.captures ++ captures }, store))

/-- What `Takes` says, of a body that is repeated as often as it matches. -/
def TakesMany (body : PatternId) (calls : Nat) (taken : List Char) (captures : List Capture)
    (mayFollow : List Char → Prop) : Prop :=
  ∀ ⦃text : Text⦄ ⦃soFar : Match⦄ ⦃room left : Nat⦄ ⦃rest : List Char⦄ (done limit : Nat)
    (within : Option String) (store : ByValue.Store), text.ahead soFar.stop = taken ++ rest →
      mayFollow rest → soFar.stop ≤ text.length → text.length - soFar.stop ≤ left → calls ≤ room →
        ByValue.atLeast (ByValue.eval { graph, text, limit } room within) body 0 left done soFar
            store =
          .ok (some ({ soFar with
            stop := soFar.stop + taken.length, captures := soFar.captures ++ captures }, store))

variable {graph} {pattern body item rule : PatternId} {kind : Kind} {items : List PatternId}
  {calls more : Nat} {taken takenRest : List Char} {captures capturesRest : List Capture}
  {mayFollow mayFollowItem before other : List Char → Prop}

theorem Takes.mono (takes : graph.Takes pattern calls taken captures mayFollow)
    (fewer : calls ≤ more) : graph.Takes pattern more taken captures mayFollow :=
  fun _ _ _ _ limit within store ahead follows inside enough =>
    takes limit within store ahead follows inside (Nat.le_trans fewer enough)

theorem Fails.mono (fails : graph.Fails pattern calls before)
    (fewer : calls ≤ more) (imp : ∀ ahead, other ahead → before ahead) :
    graph.Fails pattern more other :=
  fun _ _ _ limit within store ahead inside enough =>
    fails limit within store (imp _ ahead) inside (Nat.le_trans fewer enough)

theorem TakesMany.mono (takes : graph.TakesMany body calls taken captures mayFollow)
    (fewer : calls ≤ more) : graph.TakesMany body more taken captures mayFollow :=
  fun _ _ _ _ _ done limit within store ahead follows inside enoughLeft enough =>
    takes done limit within store ahead follows inside enoughLeft (Nat.le_trans fewer enough)

/-! ## Calls -/

/-- A call adds one to the calls that its kind of node takes. -/
theorem Takes.of_kind (same : graph.kind pattern = kind)
    (takes : ∀ ⦃text : Text⦄ ⦃i room : Nat⦄ ⦃rest : List Char⦄ (limit : Nat)
      (within : Option String) (store : ByValue.Store), text.ahead i = taken ++ rest →
        mayFollow rest → i ≤ text.length → calls ≤ room →
          ByValue.kind { graph, text, limit } (ByValue.eval { graph, text, limit } room within)
              within i kind store =
            .ok (some ({ source := text, start := i, stop := i + taken.length, captures }, store))) :
    graph.Takes pattern (calls + 1) taken captures mayFollow := by
  intro text i room rest limit within store ahead follows inside enough
  obtain ⟨room, rfl⟩ := Nat.exists_eq_add_of_le' (Nat.le_of_add_left_le enough)
  rw [ByValue.eval_succ same inside]
  exact takes limit _ store ahead follows inside (Nat.le_of_succ_le_succ enough)

theorem Fails.of_kind (same : graph.kind pattern = kind)
    (fails : ∀ ⦃text : Text⦄ ⦃i room : Nat⦄ (limit : Nat) (within : Option String)
      (store : ByValue.Store), before (text.ahead i) → i ≤ text.length → calls ≤ room →
        ByValue.kind { graph, text, limit } (ByValue.eval { graph, text, limit } room within)
          within i kind store = .ok none) :
    graph.Fails pattern (calls + 1) before := by
  intro text i room limit within store ahead inside enough
  obtain ⟨room, rfl⟩ := Nat.exists_eq_add_of_le' (Nat.le_of_add_left_le enough)
  rw [ByValue.eval_succ same inside]
  exact fails limit _ store ahead inside (Nat.le_of_succ_le_succ enough)

/-! ## Scans -/

theorem Takes.of_scans {scan : Scan}
    (scans : ∀ store, graph.Scans store calls (graph.kind pattern) scan)
    (takes : ∀ rest, mayFollow rest → scan (taken ++ rest) = some taken.length) :
    graph.Takes pattern (calls + 1) taken [] mayFollow := by
  intro text i room rest limit within store ahead follows inside enough
  rw [(scans store).eval inside enough, Scan.matchAt, ahead, takes rest follows]
  rfl

theorem Fails.of_scans {scan : Scan}
    (scans : ∀ store, graph.Scans store calls (graph.kind pattern) scan)
    (fails : ∀ ahead, before ahead → scan ahead = none) :
    graph.Fails pattern (calls + 1) before := by
  intro text i room limit within store ahead inside enough
  rw [(scans store).eval inside enough, Scan.matchAt, fails _ ahead]
  rfl

theorem takes_literal {chars : List Char} (isLiteral : graph.kind pattern = .literal chars) :
    graph.Takes pattern 1 chars [] mayFollow :=
  .of_scans (fun _ => .of_kind isLiteral (.literal chars)) fun rest _ => by simp [Scan.literal]

theorem fails_literal {c : Char} (isLiteral : graph.kind pattern = .literal [c]) :
    graph.Fails pattern 1 fun ahead => ahead.head? ≠ some c :=
  .of_scans (fun _ => .of_kind isLiteral (.literal [c])) fun ahead other => by
    cases ahead <;> grind [Scan.literal, List.isPrefixOf]

/-! ## Combinators -/

theorem Takes.reference {name : String} {cell : CellId}
    (takes : graph.Takes rule calls taken captures mayFollow)
    (refers : graph.kind pattern = .reference name cell) (bound : graph.target? cell = some rule) :
    graph.Takes pattern (calls + 1) taken captures mayFollow := by
  refine .of_kind refers fun text i room rest limit within store ahead follows inside enough => ?_
  simp only [ByValue.kind, ByValue.reference, bound]
  exact takes limit within store ahead follows inside enough

theorem Takes.capture (takes : graph.Takes body calls taken captures mayFollow)
    (capturesBody : graph.kind pattern = .capture body) :
    graph.Takes pattern (calls + 1) taken (.text (String.ofList taken) :: captures) mayFollow := by
  refine .of_kind capturesBody fun text i room rest limit within store ahead follows inside enough =>
    ?_
  have value : text.slice i (i + taken.length) = String.ofList taken := by
    rw [Text.slice, Text.span_eq_take_ahead, ahead, List.take_left]
  unfold ByValue.kind
  dsimp only
  rw [takes limit within store ahead follows inside enough]
  simp only [ByValue.after, ByValue.still, Option.map_some, Matching.captureText, Match.value, value]

theorem Fails.capture (fails : graph.Fails body calls before)
    (capturesBody : graph.kind pattern = .capture body) :
    graph.Fails pattern (calls + 1) before := by
  refine .of_kind capturesBody fun text i room limit within store ahead inside enough => ?_
  unfold ByValue.kind
  dsimp only
  rw [fails limit within store ahead inside enough]
  rfl

theorem Takes.group (takes : graph.Takes body calls taken captures mayFollow)
    (groups : graph.kind pattern = .group body false) :
    graph.Takes pattern (calls + 1) taken [.list captures] mayFollow := by
  refine .of_kind groups fun text i room rest limit within store ahead follows inside enough => ?_
  unfold ByValue.kind
  dsimp only
  rw [takes limit within store ahead follows inside enough]
  rfl

theorem TakesAll.nil : graph.TakesAll [] calls [] [] mayFollow := by
  intro text soFar room rest limit within store ahead follows inside enough
  simp [ByValue.sequence]

/-- One item, and those behind it, where what they take may follow the item. -/
theorem Takes.andThen (takes : graph.Takes item calls taken captures mayFollowItem)
    (takesRest : graph.TakesAll items calls takenRest capturesRest mayFollow)
    (fits : ∀ rest, mayFollow rest → mayFollowItem (takenRest ++ rest)) :
    graph.TakesAll (item :: items) calls (taken ++ takenRest) (captures ++ capturesRest)
      mayFollow := by
  intro text soFar room rest limit within store ahead follows inside enough
  rw [List.append_assoc] at ahead
  obtain ⟨behind, fitsText⟩ := Text.ahead_of_append ahead inside
  rw [ByValue.sequence_of_found (takes limit within store ahead (fits rest follows) inside enough)]
  refine (takesRest limit within store behind follows fitsText enough).trans ?_
  simp [Match.append, Nat.add_assoc, List.append_assoc]

theorem TakesAll.sequence (takes : graph.TakesAll items calls taken captures mayFollow)
    (inOrder : graph.kind pattern = .sequence items) :
    graph.Takes pattern (calls + 1) taken captures mayFollow :=
  .of_kind inOrder fun _ _ _ _ limit within store ahead follows inside enough =>
    takes limit within store ahead follows inside enough

/-- A sequence fails where its first item does. -/
theorem Fails.sequence (fails : graph.Fails item calls before)
    (inOrder : graph.kind pattern = .sequence (item :: items)) :
    graph.Fails pattern (calls + 1) before :=
  .of_kind inOrder fun _ _ _ limit within store ahead inside enough =>
    ByValue.sequence_of_failed (fails limit within store ahead inside enough)

/-- A choice takes what its first item takes. -/
theorem Takes.choice (takes : graph.Takes item calls taken captures mayFollow)
    (chooses : graph.kind pattern = .choice (item :: items)) :
    graph.Takes pattern (calls + 1) taken captures mayFollow := by
  refine .of_kind chooses fun text i room rest limit within store ahead follows inside enough => ?_
  simp only [ByValue.kind, ByValue.choice]
  rw [takes limit within store ahead follows inside enough]
  rfl

/-- A choice takes what its second item takes, where the first one fails. -/
theorem Takes.choice_second {first : PatternId}
    (takes : graph.Takes item calls taken captures mayFollow)
    (fails : graph.Fails first calls before)
    (chooses : graph.kind pattern = .choice (first :: item :: items))
    (isBefore : ∀ rest, before (taken ++ rest)) :
    graph.Takes pattern (calls + 1) taken captures mayFollow := by
  refine .of_kind chooses fun text i room rest limit within store ahead follows inside enough => ?_
  simp only [ByValue.kind, ByValue.choice]
  rw [fails limit within store (ahead ▸ isBefore rest) inside enough]
  dsimp only [ByValue.after]
  rw [takes limit within store ahead follows inside enough]

theorem Fails.takesMany (fails : graph.Fails body calls mayFollow) :
    graph.TakesMany body calls [] [] mayFollow := by
  intro text soFar room left rest done limit within store ahead follows inside enoughLeft enough
  unfold ByValue.atLeast
  rw [fails limit within store (ahead ▸ follows) inside enough]
  simp [ByValue.after, ByValue.still]

/-- One iteration, and those behind it, where what they take may follow the first one. -/
theorem Takes.andMany (takes : graph.Takes body calls taken captures mayFollowItem)
    (takesRest : graph.TakesMany body calls takenRest capturesRest mayFollow) (some : taken ≠ [])
    (fits : ∀ rest, mayFollow rest → mayFollowItem (takenRest ++ rest)) :
    graph.TakesMany body calls (taken ++ takenRest) (captures ++ capturesRest) mayFollow := by
  intro text soFar room left rest done limit within store ahead follows inside enoughLeft enough
  rw [List.append_assoc] at ahead
  obtain ⟨behind, fitsText⟩ := Text.ahead_of_append ahead inside
  have width : 0 < taken.length := List.length_pos_iff.mpr some
  obtain ⟨left, rfl⟩ : ∃ fewer, left = fewer + 1 := ⟨left - 1, by omega⟩
  unfold ByValue.atLeast
  rw [takes limit within store ahead (fits rest follows) inside enough]
  dsimp only [ByValue.after]
  rw [if_neg (by omega)]
  refine (takesRest (done + 1) limit within store behind follows fitsText
    (by dsimp only [Match.append]; omega) enough).trans ?_
  simp [Match.append, Nat.add_assoc, List.append_assoc]

theorem TakesMany.repetition (takes : graph.TakesMany body calls taken captures mayFollow)
    (repeats : graph.kind pattern = .repetition body (.atLeast 0)) :
    graph.Takes pattern (calls + 1) taken captures mayFollow :=
  .of_kind repeats fun _ _ _ _ limit within store ahead follows inside enough =>
    takes 0 limit within store ahead follows inside (Nat.le_refl _) enough

end Graph

end PegEngine
