import SwarmLlm.Inference.FlowRun

namespace SwarmLlm.Inference

open Lib List FlowRun FlowState Except

variable {fuel : Nat}

section Walk

variable (next : List Token → Token) (flow : FlowTree) (draws : List (Option Token)) (context : List Token)

def Right : Prop := ∀ row token, draws[row]? = some (some token) → token = next (context ++ flow.pathTokens row)

def WalkEnd.tokens (flow : FlowTree) : WalkEnd → List Token
  | .waiting row => flow.pathTokens row
  | .missed row token => flow.pathTokens row ++ [token]

theorem walk_draws_exact (right : Right next flow draws context) (row : Nat) (rows : draws.length ≤ fuel + row) :
    let walked := walkDraws flow.tree flow.tokens draws fuel row
    Decoded (fun tokens => next (context ++ flow.pathTokens row ++ tokens)) walked.1 ∧
      walked.2.tokens flow = flow.pathTokens row ++ walked.1 ∧
      (∀ stop, walked.2 = .waiting stop → (draws[stop]?).join = none) ∧ (walked.1 = [] → (draws[row]?).join = none) := by
  induction fuel generalizing row with
  | zero =>
    have undrawn : (draws[row]?).join = none := by
      rw [getElem?_eq_none (by omega)]
      rfl
    exact ⟨decoded_nil _, (append_nil _).symm, fun stop ends => by cases ends; exact undrawn, fun _ => undrawn⟩
  | succ fuel ih =>
    rw [walkDraws]
    cases drawn : (draws[row]?).join with
    | none => exact ⟨decoded_nil _, (append_nil _).symm, fun stop ends => by cases ends; exact drawn, fun _ => rfl⟩
    | some draw =>
      have same := right row draw (Option.join_eq_some_iff.mp drawn)
      have first : Decoded (fun tokens => next (context ++ flow.pathTokens row ++ tokens)) [draw] := by
        rw [same]
        simpa using decoded_step (fun tokens => next (context ++ flow.pathTokens row ++ tokens)) (decoded_nil _)
      simp only
      cases found : (flow.tree.children (some row)).find? fun child => flow.tokens[child]? == some draw with
      | none => exact ⟨first, rfl, nofun, nofun⟩
      | some child =>
        have listed := mem_of_find?_eq_some found
        have carries := find?_some found
        simp only [beq_iff_eq] at carries
        have deeper : flow.pathTokens child = flow.pathTokens row ++ [draw] := by
          rw [FlowTree.path_tokens_child flow row ((flow.tree.mem_children_some row child).mp listed),
            getD_eq_getElem?_getD, carries]
          rfl
        have after := (flow.tree.children_after row child listed).1
        obtain ⟨later, ending, waits, _⟩ := ih child (by omega)
        rw [deeper] at later ending
        refine ⟨?_, by rw [ending, append_assoc]; rfl, waits, nofun⟩
        refine decoded_append _ [draw] _ first ?_
        simpa only [append_assoc] using later

end Walk

variable {rebased : Rebased}

section Tracking

variable (next : List Token → Token)

-- The draws in and the answers on their way are the model's on this tree, which
-- follows `context`.
structure Tracks (context : List Token) (run : FlowRun) : Prop where
  based : context.length = run.flow.base
  rows : run.draws.length = run.flow.length
  right : Right next run.flow run.draws context
  remapped : ∀ epoch rows, run.remap = some (epoch, rows) → epoch + 1 = run.epoch
  epochs : ∀ waiting ∈ run.out, waiting.sent.epoch ≤ run.epoch
  answers : ∀ waiting ∈ run.out, ∀ place, run.places waiting.sent = some place → ∀ offset token row,
    (waiting.drawn.drop waiting.sent.lead)[offset]? = some token → place (waiting.sent.firstRow + offset) = some row →
      row < run.flow.length ∧ token = next (context ++ run.flow.pathTokens row)

structure Cached (context : List Token) (run : FlowRun) : Prop where
  cached : run.cache = context ++ run.flow.tokens.take run.sent
  counted : run.sent ≤ run.flow.length

variable {context : List Token} {run moved : FlowRun} {offset row : Nat} {token : Token} {next}

theorem grow_tracks {parent : Nat} {grown : FlowRun}
    (tracks : Tracks next context run) (pushed : run.grow parent token = .ok (row, grown)) :
    ∃ flow, FlowTree.Pushed run.flow parent token row flow ∧ grown = { run with flow := flow, draws := run.draws ++ [none] } ∧
      Tracks next context grown ∧ (Cached context run → Cached context grown) := by
  rw [grow] at pushed
  split at pushed
  · cases pushed
  next number flow made =>
    obtain ⟨same, whole⟩ := Prod.mk.inj (ok.inj pushed)
    subst same
    have spec := FlowTree.push_spec run.flow parent token number flow made
    have more := FlowTree.pushed_length spec
    have old := FlowTree.pushed_old spec
    refine ⟨flow, spec, whole.symm, ?_⟩
    rw [← whole]
    refine ⟨⟨tracks.based.trans spec.base.symm, ?_, ?_, tracks.remapped, tracks.epochs, ?_⟩, fun held => ⟨?_, ?_⟩⟩
    · simp only [more, length_append, tracks.rows]
      rfl
    · intro other draw found
      have inside : other < run.draws.length := by
        have bound := (List.getElem?_eq_some_iff.mp found).1
        rw [List.length_append, List.length_singleton] at bound
        rcases Nat.lt_or_eq_of_le (Nat.le_of_lt_succ bound) with early | last
        · exact early
        · rw [last, getElem?_concat_length] at found
          cases found
      rw [getElem?_append_left inside] at found
      rw [old other (tracks.rows ▸ inside)]
      exact tracks.right other draw found
    · intro waiting member place placed offset draw slot drawn put
      obtain ⟨inside, same⟩ := tracks.answers waiting member place placed offset draw slot drawn put
      simp only
      rw [old slot inside]
      exact ⟨by omega, same⟩
    · simp only [spec.tokens]
      rw [take_append_of_le_length held.counted]
      exact held.cached
    · simp only [more]
      exact Nat.le_succ_of_le held.counted

theorem to_wire_parents (tree : DraftTree) :
    (tree.toWire.map fun word => if word = 0 then none else some (word - 1)) = tree.parents := by
  rw [DraftTree.toWire, map_map]
  conv_rhs => rw [← map_id tree.parents]
  apply map_congr_left
  intro parent _
  cases parent with
  | none => rfl
  | some row => rfl

theorem rebase_wire_parents (flow : FlowTree) (rebased : Rebased) :
    ((flow.rebaseForward rebased).2.map fun word => if word = 0 then none else some (word - 1)) =
      graft rebased.path.length flow.tree.parents := by
  rw [FlowTree.rebaseForward, graft, DraftTree.toWire, map_append, map_map, map_map]
  congr 1
  apply map_congr_left
  intro parent _
  cases parent with
  | none => rfl
  | some row =>
    have above : row + 1 + rebased.path.length ≠ 0 := by omega
    simp only [Function.comp_apply, Option.elim_some, Nat.succ_ne_zero, if_false, above]
    congr 1
    omega

theorem drawn_get {rows : Rows} {cache : List Token} (found : (rows.drawn next cache)[offset]? = some token) :
    offset < rows.tokens.length ∧ token = next ((rows.held cache).take rows.start ++
        (path (rows.wire.map fun word => if word = 0 then none else some (word - 1)) (rows.indexPos - rows.start + offset)).map
          fun other => (rows.held cache).getD (rows.start + other) 0) := by
  rw [Rows.drawn, getElem?_map] at found
  obtain ⟨row, listed, same⟩ := Option.map_eq_some_iff.mp found
  obtain ⟨inside, number⟩ := List.getElem?_eq_some_iff.mp listed
  rw [List.getElem_range', Nat.one_mul] at number
  rw [List.length_range'] at inside
  exact ⟨inside, by rw [← same, ← number]⟩

theorem cache_past {tokens : List Token} : (context ++ tokens).getD (context.length + row) 0 = tokens.getD row 0 := by
  rw [getD_append_right _ _ _ _ (Nat.le_add_right _ _), Nat.add_sub_cancel_left]

theorem unsent_held (based : context.length = run.flow.base)
    (held : Cached context run) : run.rowsUnsent.held run.cache = context ++ run.flow.tokens := by
  have counted := held.counted
  have full : run.cache.length ≤ run.flow.base + run.sent := by
    rw [held.cached, length_append, based, length_take]
    omega
  rw [Rows.held, rowsUnsent, take_of_length_le full, held.cached, append_assoc, take_append_drop]

theorem unsent_drawn (based : context.length = run.flow.base) (held : Cached context run)
    (offset : Nat) (token : Token) (found : (run.rowsUnsent.drawn next run.cache)[offset]? = some token) :
    run.sent + offset < run.flow.length ∧ token = next (context ++ run.flow.pathTokens (run.sent + offset)) := by
  obtain ⟨inside, same⟩ := drawn_get found
  have counted := held.counted
  rw [unsent_held based held] at same
  simp only [rowsUnsent, length_drop, to_wire_parents, ← based, take_left, Nat.add_sub_cancel_left, cache_past] at inside same
  exact ⟨by rw [FlowTree.length] at counted ⊢; omega, same⟩

theorem send_tracks (sent : FlowRun) {rows : Rows} (tracks : Tracks next context run)
    (held : rows.held run.cache = context ++ run.flow.tokens)
    (drawn : ∀ offset token, ((rows.drawn next run.cache).drop rows.lead)[offset]? = some token →
      rows.firstRow + offset < run.flow.length ∧ token = next (context ++ run.flow.pathTokens (rows.firstRow + offset)))
    (went : run.send next rows = .ok sent) :
    Tracks next context sent ∧ Cached context sent ∧ ∃ turn count cache out, sent = { run with turn, sent := count, cache, out } := by
  rw [send] at went
  split at went
  · cases went
  rw [← ok.inj went]
  refine ⟨{ tracks with epochs := forall_concat tracks.epochs (Nat.le_refl run.epoch), answers := ?_ }, ⟨?_, Nat.le_refl _⟩, _, _, _, _, rfl⟩
  · intro waiting member place placed offset token row found put
    rcases mem_append.mp member with old | fresh
    · exact tracks.answers waiting old place placed offset token row found put
    · rw [mem_singleton.mp fresh] at placed found put
      rw [places, if_pos rfl] at placed
      rw [← Option.some.inj placed] at put
      rw [← Option.some.inj put]
      exact drawn offset token found
  · simp only [held, FlowTree.length, take_length]

theorem new_index_get {rows : Nat} {kept : List Nat} {old new : Nat}
    (found : ((newIndex rows kept)[old]?).join = some new) : kept[new]? = some old := by
  obtain ⟨inside, named⟩ := List.getElem?_eq_some_iff.mp (Option.join_eq_some_iff.mp found)
  simp only [newIndex, List.getElem_map, List.getElem_range] at named
  split at named
  · next member =>
      have place := idxOf_lt_length_of_mem member
      rw [← Option.some.inj named, getElem?_eq_getElem place, getElem_idxOf place]
  · cases named

theorem cut_tracks (cut : FlowTree) (tracks : Tracks next context run) (spec : FlowTree.Cut run.flow rebased cut) :
    Tracks next (context ++ rebased.path) (run.cutTo rebased cut) where
  based := by
    rw [length_append, tracks.based]
    exact spec.base.symm
  rows := by
    rw [cutTo, length_map]
    exact spec.rows.symm
  right := by
    intro row token found
    rw [cutTo, getElem?_map] at found
    obtain ⟨old, kept, drawn⟩ := Option.map_eq_some_iff.mp found
    have same := tracks.right old token (Option.join_eq_some_iff.mp drawn)
    rw [spec.tokens row old kept, ← append_assoc] at same
    exact same
  remapped := by
    intro epoch rows named
    have same := (Prod.mk.inj (Option.some.inj named)).1
    rw [← same]
    rfl
  epochs waiting member := Nat.le_succ_of_le (tracks.epochs waiting member)
  answers := by
    intro waiting member place placed offset token row found put
    have older := tracks.epochs waiting member
    have later : waiting.sent.epoch ≠ run.epoch + 1 := by omega
    simp only [places, cutTo, later, if_false] at placed
    split at placed
    · next current =>
        rw [← Option.some.inj placed] at put
        have kept := new_index_get put
        have before := tracks.answers waiting member some (by rw [places, if_pos current.2.symm]) offset token
          (waiting.sent.firstRow + offset) found rfl
        have inside := (List.getElem?_eq_some_iff.mp kept).1
        rw [spec.tokens row _ kept, ← List.append_assoc] at before
        exact ⟨spec.rows ▸ inside, before.2⟩
    · cases placed

theorem rebased_held (run : FlowRun) {cut : FlowTree}
    (based : context.length = run.flow.base) (held : Cached context run) (spec : FlowTree.Cut run.flow rebased cut) :
    (rowsRebased rebased cut).held run.cache = (context ++ rebased.path) ++ cut.tokens := by
  rw [Rows.held, rowsRebased, held.cached, spec.oldBase, ← based, take_left, append_assoc]
  rfl

theorem rebased_drawn {cut : FlowTree}
    (based : context.length = run.flow.base) (held : Cached context run) (spec : FlowTree.Cut run.flow rebased cut)
    (found : (((rowsRebased rebased cut).drawn next run.cache).drop rebased.path.length)[offset]? = some token) :
    offset < cut.length ∧ token = next ((context ++ rebased.path) ++ cut.pathTokens offset) := by
  rw [getElem?_drop] at found
  obtain ⟨inside, same⟩ := drawn_get found
  have short : offset < cut.length := by
    simp only [rowsRebased, FlowTree.rebaseForward, length_append] at inside
    exact Nat.lt_of_add_lt_add_left inside
  have within : offset < cut.tree.parents.length := by
    rw [FlowTree.length, cut.filled] at short
    exact short
  rw [rebased_held run based held spec, append_assoc] at same
  simp only [rowsRebased, rebase_wire_parents, Nat.sub_self, Nat.zero_add, spec.oldBase, ← based, take_left,
    cache_past, path_graft _ _ cut.tree.ordered within, map_append, map_map] at same
  refine ⟨short, ?_⟩
  rw [same, append_assoc]
  congr 3
  · rw [map_congr_left (fun other member => getD_append _ _ _ _ (mem_range.mp member))]
    exact ext_getElem (by simp) fun index _ inside => by simp [getElem?_eq_getElem inside]
  · apply map_congr_left
    intro other _
    exact cache_past

variable (next)

structure Carries (context : List Token) (run : FlowRun) (added : List Token) (moved : FlowRun) (after : List Token) : Prop where
  tracks : Tracks next after moved
  cached : Cached after moved
  reached : after ++ moved.flow.pathTokens moved.flow.here = context ++ run.flow.pathTokens run.flow.here ++ added
  drawn : (run.draws[run.flow.here]?).join = none ∨ added ≠ [] → (moved.draws[moved.flow.here]?).join = none
  emitted : moved.emitted = run.emitted
  bonus : moved.bonusWaiting = run.bonusWaiting

variable {next}

section

variable (tracks : Tracks next context run)

include tracks

theorem rebase_carries (held : Cached context run)
    (done : run.rebase next = .ok moved) : ∃ after, Carries next context run [] moved after := by
  rw [rebase] at done
  split at done
  · cases done
  next rebased cut made =>
    have spec := FlowTree.rebase_spec made
    split at done
    · cases done
    next sent went =>
      obtain ⟨follows, cached, _, _, _, _, rfl⟩ := send_tracks sent (cut_tracks cut tracks spec) (rebased_held run tracks.based held spec)
        (fun offset token found => by
          have drawn := rebased_drawn tracks.based held spec found
          simp only [rowsRebased, Nat.zero_add]
          exact drawn) went
      have first : rebased.kept[0]? = some run.flow.here := by
        rw [spec.kept, ← head?_eq_getElem?]
        exact FlowTree.kept_first
      rw [← ok.inj done]
      refine ⟨context ++ rebased.path, ⟨{ follows with }, { cached with }, ?_, ?_, rfl, rfl⟩⟩
      · change context ++ rebased.path ++ cut.pathTokens cut.here = _
        rw [spec.here, append_nil, spec.tokens 0 _ first, ← append_assoc]
      · rintro (undrawn | added)
        · simp only [cutTo]
          rw [spec.here, getElem?_map, first]
          exact undrawn
        · exact absurd rfl added

theorem advance_tracks (held : Cached context run) (went : run.advance row = .ok moved) :
    Tracks next context moved ∧ Cached context moved ∧
      ∃ inside, moved = { run with flow := { run.flow with here := row, inside } } := by
  rw [advance] at went
  split at went
  · next same =>
      subst same
      rw [← ok.inj went]
      exact ⟨tracks, held, run.flow.inside, rfl⟩
  split at went
  · cases went
  next flow made =>
    rw [FlowTree.advance] at made
    split at made
    · rw [← ok.inj went, ← ok.inj made]
      exact ⟨{ tracks with }, { held with }, _, rfl⟩
    · cases made

theorem push_bonus_carries (held : Cached context run)
    (went : run.pushBonus token = .ok moved) : Carries next context run [token] moved context := by
  rw [pushBonus] at went
  split at went
  · cases went
  next row grown made =>
    obtain ⟨flow, spec, rfl, follows, cached⟩ := grow_tracks tracks made
    obtain ⟨tracked, kept, inside, rfl⟩ := advance_tracks follows (cached held) went
    refine ⟨tracked, kept, ?_, fun _ => ?_, rfl, rfl⟩
    · change context ++ flow.pathTokens row = _
      rw [FlowTree.pushed_new spec, ← append_assoc]
    · simp only
      rw [spec.row, ← tracks.rows, getElem?_concat_length]
      rfl

end

variable (next)

-- The walk's row is the one behind `all`, or behind all but a miss that waits for
-- room; nothing more can be emitted yet.
structure Stands (context : List Token) (run : FlowRun) (all : List Token) : Prop where
  tracks : Tracks next context run
  cached : Cached context run
  reached : context ++ run.flow.pathTokens run.flow.here ++ run.bonusWaiting.toList = all
  idle : run.bonusWaiting = none → (run.draws[run.flow.here]?).join = none

variable {next}

theorem pushed_stands {after : List Token}
    (carries : Carries next context run [token] moved after) (free : run.bonusWaiting = none) :
    Stands next after moved (context ++ run.flow.pathTokens run.flow.here ++ [token]) where
  tracks := carries.tracks
  cached := carries.cached
  reached := by
    rw [carries.bonus, free, carries.reached]
    exact append_nil _
  idle _ := carries.drawn (Or.inr (cons_ne_nil _ _))

theorem missed_stands {cut : FlowRun} (tracks : Tracks next context run) (held : Cached context run)
    (free : run.bonusWaiting = none) (done : run.rebase next = .ok cut) (went : cut.pushBonus token = .ok moved) :
    ∃ after, Stands next after moved (context ++ run.flow.pathTokens run.flow.here ++ [token]) ∧ moved.emitted = run.emitted := by
  obtain ⟨after, first⟩ := rebase_carries tracks held done
  have second := push_bonus_carries first.tracks first.cached went
  have stands := pushed_stands second (first.bonus.trans free)
  rw [first.reached, append_nil] at stands
  exact ⟨after, stands, second.emitted.trans first.emitted⟩

theorem waiting_bonus_stands {all : List Token} (stands : Stands next context run all)
    (went : run.pushWaitingBonus next = .ok moved) : ∃ after, Stands next after moved all ∧ moved.emitted = run.emitted := by
  rw [pushWaitingBonus] at went
  cases waiting : run.bonusWaiting with
  | none =>
    rw [waiting] at went
    rw [← ok.inj went]
    exact ⟨context, stands, rfl⟩
  | some token =>
    rw [waiting] at went
    have tracks := stands.tracks
    have taken : Tracks next context { run with bonusWaiting := none } :=
      { tracks with }
    have cached : Cached context { run with bonusWaiting := none } := ⟨stands.cached.cached, stands.cached.counted⟩
    have reached := stands.reached
    rw [waiting, Option.toList_some] at reached
    simp only at went
    split at went
    · split at went
      · cases went
      · next cut done =>
          obtain ⟨after, stands, emitted⟩ := missed_stands taken cached rfl done went
          exact ⟨after, reached ▸ stands, emitted⟩
    · have carries := push_bonus_carries taken cached went
      have stands := pushed_stands carries rfl
      exact ⟨context, reached ▸ stands, carries.emitted⟩

theorem settle_stands {stop : WalkEnd} (tracks : Tracks next context run)
    (held : Cached context run) (free : run.bonusWaiting = none)
    (waits : ∀ row, stop = .waiting row → (run.draws[row]?).join = none) (went : run.settle next stop = .ok moved) :
    ∃ after, Stands next after moved (context ++ stop.tokens run.flow) ∧ moved.emitted = run.emitted := by
  cases stop with
  | waiting row =>
    obtain ⟨tracked, cached, inside, rfl⟩ := advance_tracks tracks held went
    refine ⟨context, ⟨tracked, cached, ?_, fun _ => waits row rfl⟩, rfl⟩
    rw [free]
    exact append_nil _
  | missed row token =>
    rw [settle] at went
    split at went
    · cases went
    next stepped step =>
      obtain ⟨tracked, cached, inside, rfl⟩ := advance_tracks tracks held step
      split at went
      · split at went
        · rw [← ok.inj went]
          exact ⟨context, ⟨{ tracked with }, { cached with }, append_assoc _ _ _, nofun⟩, rfl⟩
        split at went
        · cases went
        · next cut done =>
            obtain ⟨after, stands, same⟩ := missed_stands tracked cached free done went
            rw [append_assoc] at stands
            exact ⟨after, stands, same⟩
      · have carries := push_bonus_carries tracked cached went
        have stands := pushed_stands carries free
        rw [append_assoc] at stands
        exact ⟨context, stands, carries.emitted⟩

end Tracking

section Reply

variable (config : FlowConfig) (run : FlowRun) (walked : List Token)

theorem reply_front : run.replyTokens config walked <+: walked := by
  rw [replyTokens]
  refine ( take_prefix _ _).trans ?_
  split
  · exact prefix_rfl
  · exact take_prefix _ _

theorem reply_whole (unended : config.eos.contains ((run.replyTokens config walked).getLastD 0) = false)
    (room : run.generated.length + (run.replyTokens config walked).length < config.maxTokens) :
    run.replyTokens config walked = walked := by
  have long : ∀ ended : List Token,
      run.generated.length + (ended.take (max (config.maxTokens - run.generated.length) 1)).length < config.maxTokens →
      ended.take (max (config.maxTokens - run.generated.length) 1) = ended := by
    intro ended short
    rw [length_take] at short
    exact take_of_length_le (by omega)
  unfold replyTokens at unended room ⊢
  cases found : walked.findIdx? fun token => config.eos.contains token with
  | none =>
    simp only [found] at room ⊢
    exact long walked room
  | some last =>
    simp only [found] at unended room
    rw [long _ room] at unended
    obtain ⟨inside, ends, _⟩ := findIdx?_eq_some_iff_getElem.mp found
    rw [take_succ_eq_append_getElem inside, getLastD_concat, ends] at unended
    cases unended

end Reply

-- What was emitted is decoded, and while the run goes on the walk stands behind it.
structure FlowExact (next : List Token → Token) (prompt : List Token) (root : Token) (state : FlowState) : Prop where
  decoded : Decoded (fun tokens => next (prompt ++ root :: tokens)) state.run.emitted
  stands : state.stopped = false → ∃ context, Stands next context state.run (prompt ++ root :: state.run.emitted)

variable {config : FlowConfig}

section Steps

variable {next : List Token → Token} {prompt : List Token} {root : Token} {run : FlowRun}

theorem walk_exact {closed : Bool} {context : List Token}
    (decoded : Decoded (fun tokens => next (prompt ++ root :: tokens)) run.emitted) (tracks : Tracks next context run)
    (held : Cached context run) (free : run.bonusWaiting = none)
    (stands : context ++ run.flow.pathTokens run.flow.here = prompt ++ root :: run.emitted) :
    FlowExact next prompt root ⟨(run.walk next config closed).1, (run.walk next config closed).2 != .carryOn⟩ := by
  obtain ⟨drawn, ending, waits, idles⟩ := walk_draws_exact next run.flow run.draws context tracks.right run.flow.here
    (by rw [tracks.rows]; exact Nat.le_add_right _ _)
  rw [walk]
  generalize walkDraws run.flow.tree run.flow.tokens run.draws run.flow.length run.flow.here = walked at drawn ending idles waits
  rw [stands] at drawn
  obtain ⟨rest, whole⟩ := reply_front config run walked.1
  have reply : Decoded (fun tokens => next (prompt ++ root :: tokens)) (run.emitted ++ run.replyTokens config walked.1) := by
    refine decoded_append _ run.emitted _ decoded ?_
    rw [← whole] at drawn
    have front := decoded_append_left drawn
    simpa only [append_assoc, cons_append] using front
  by_cases empty : walked.1.isEmpty = true
  · simp only [empty, if_true]
    refine ⟨decoded, fun _ => ⟨context, tracks, held, ?_, fun _ => idles (isEmpty_iff.mp empty)⟩⟩
    rw [free]
    exact (append_nil _).trans stands
  simp only [empty, Bool.false_eq_true, if_false]
  by_cases gone : closed = true
  · simp only [gone, if_true]
    exact ⟨reply, nofun⟩
  simp only [gone, Bool.false_eq_true, if_false]
  split
  · exact ⟨reply, nofun⟩
  next goes =>
    simp only [Bool.or_eq_true, decide_eq_true_eq, not_or, Bool.not_eq_true, Nat.not_le] at goes
    have uncut : run.replyTokens config walked.1 = walked.1 := by
      refine reply_whole config run walked.1 goes.1 ?_
      have room := goes.2
      simp only [keep, emit, length_append] at room
      exact room
    have kept : Tracks next context ((run.emit (run.replyTokens config walked.1)).keep (run.replyTokens config walked.1)) :=
      { tracks with }
    split
    · exact ⟨reply, nofun⟩
    next moved went =>
      obtain ⟨after, standing, emitted⟩ := settle_stands kept { held with } free waits went
      have all : context ++ walked.2.tokens run.flow = prompt ++ root :: (run.emitted ++ walked.1) := by
        rw [ending, ← append_assoc, stands, append_assoc, cons_append]
      refine ⟨by rw [emitted]; exact reply, fun _ => ⟨after, ?_⟩⟩
      rw [emitted]
      simp only [keep, emit, uncut]
      exact all ▸ standing

theorem record_right {flow : FlowTree} (context : List Token) (place : Nat → Option Nat) (first : Nat) {tokens : List Token}
    (draws : List (Option Token)) (right : Right next flow draws context)
    (given : ∀ offset token row, tokens[offset]? = some token → place (first + offset) = some row →
      token = next (context ++ flow.pathTokens row)) :
    Right next flow (record place first tokens draws) context ∧
      (record place first tokens draws).length = draws.length := by
  induction tokens generalizing first draws with
  | nil => exact ⟨right, rfl⟩
  | cons draw rest ih =>
    rw [record]
    have later : ∀ offset token row, rest[offset]? = some token → place (first + 1 + offset) = some row →
        token = next (context ++ flow.pathTokens row) := fun offset token row found put =>
      given (offset + 1) token row found (by rw [← put]; congr 1; omega)
    cases put : place first with
    | none => exact ih (first + 1) draws right later
    | some slot =>
      have same := given 0 draw slot rfl put
      have noted : Right next flow (draws.modify slot fun held => some (held.getD draw)) context := by
        intro row token found
        rw [getElem?_modify] at found
        by_cases here : slot = row
        · subst here
          simp only [if_true, Option.map_eq_map] at found
          obtain ⟨held, old, value⟩ := Option.map_eq_some_iff.mp found
          cases held with
          | none => rw [← Option.some.inj value]; exact same
          | some earlier => rw [← Option.some.inj value]; exact right slot earlier old
        · simp only [here, if_false, Option.map_eq_map, Option.map_id_fun', id_eq] at found
          exact right row token found
      obtain ⟨all, size⟩ := ih (first + 1) _ noted later
      exact ⟨all, size.trans (length_modify _ _ _)⟩

theorem answered_eq (run : FlowRun) (sent : Sent) :
    ∃ base unsettled, run.answered sent = { run with settledBase := base, unsettled } := by
  rw [answered]
  cases sent.rebasesTo with
  | none => exact ⟨run.settledBase, run.unsettled, rfl⟩
  | some base => exact ⟨base, false, rfl⟩

theorem take_answer_exact (run : FlowRun) (waiting : Waiting) (reply : FlowRun.Reply) (closed : Bool)
    (context : List Token) (decoded : Decoded (fun tokens => next (prompt ++ root :: tokens)) run.emitted)
    (stands : Stands next context run (prompt ++ root :: run.emitted))
    (answers : ∀ place, run.places waiting.sent = some place → ∀ offset token row,
      (waiting.drawn.drop waiting.sent.lead)[offset]? = some token → place (waiting.sent.firstRow + offset) = some row →
        token = next (context ++ run.flow.pathTokens row))
    (honest : ∀ tokenIds, reply = .drawn tokenIds → tokenIds.length = waiting.sent.rows → tokenIds = waiting.drawn) :
    FlowExact next prompt root ⟨(run.takeAnswer next config waiting.sent reply closed).1,
      (run.takeAnswer next config waiting.sent reply closed).2 != .carryOn⟩ := by
  have goes : FlowExact next prompt root ⟨run, false⟩ := ⟨decoded, fun _ => ⟨context, stands⟩⟩
  have tracks := stands.tracks
  have held := stands.cached
  have ends : ∀ message, FlowExact next prompt root ⟨run, Taken.failed message != .carryOn⟩ := fun _ => ⟨decoded, nofun⟩
  cases reply with
  | refused why =>
    rw [takeAnswer]
    by_cases current : waiting.sent.epoch = run.epoch
    · simp only [current, if_true]
      exact ends why
    · simp only [current, if_false]
      exact goes
  | drawn tokenIds =>
    rw [takeAnswer]
    by_cases count : tokenIds.length = waiting.sent.rows
    · have same := honest tokenIds rfl count
      obtain ⟨base, unsettled, heard⟩ := answered_eq run waiting.sent
      have placed : places { run with settledBase := base, unsettled } waiting.sent = run.places waiting.sent := rfl
      simp only [count, ne_eq, not_true, if_false, heard]
      rw [placed]
      cases found : run.places waiting.sent with
      | none => exact ⟨decoded, fun _ => ⟨context, { tracks with }, { held with }, stands.reached, stands.idle⟩⟩
      | some place =>
        obtain ⟨right, size⟩ := record_right context place waiting.sent.firstRow run.draws tracks.right fun offset token row read put =>
            answers place found offset token row (same ▸ read) put
        have noted : Tracks next context { run with
            settledBase := base, unsettled
            draws := record place waiting.sent.firstRow (tokenIds.drop waiting.sent.lead) run.draws } :=
          { tracks with rows := size.trans tracks.rows, right }
        simp only
        split
        · next waits =>
            refine ⟨decoded, fun _ => ⟨context, noted, { held with }, stands.reached, fun free => ?_⟩⟩
            rw [free] at waits
            cases waits
        next free =>
          have bare : run.bonusWaiting = none := Option.not_isSome_iff_eq_none.mp free
          have reached := stands.reached
          rw [bare] at reached
          exact walk_exact decoded noted { held with } bare ((append_nil _).symm.trans reached)
    simp only [count, ne_eq, not_false_eq_true, if_true]
    by_cases current : waiting.sent.epoch = run.epoch
    · simp only [current, if_true]
      exact ends _
    · simp only [current, if_false]
      exact goes

theorem after_exact {state : FlowState} (exact : FlowExact next prompt root state) (result : Except String FlowRun)
    (moves : ∀ moved, result = .ok moved →
      ∃ context, Stands next context moved (prompt ++ root :: state.run.emitted) ∧ moved.emitted = state.run.emitted) :
    FlowExact next prompt root (state.after result) := by
  cases result with
  | error message => exact ⟨exact.decoded, nofun⟩
  | ok moved =>
    obtain ⟨context, stands, emitted⟩ := moves moved rfl
    refine ⟨by simp only [FlowState.after, emitted]; exact exact.decoded, fun _ => ⟨context, ?_⟩⟩
    simp only [FlowState.after, emitted]
    exact stands

theorem grow_stands {context all : List Token} (stands : Stands next context run all) {parent : Nat}
    {token : Token} {row : Nat} {grown : FlowRun} (pushed : run.grow parent token = .ok (row, grown)) :
    Stands next context grown all ∧ grown.emitted = run.emitted := by
  obtain ⟨flow, spec, whole, tracked, cached⟩ := grow_tracks stands.tracks pushed
  have inside : run.flow.here < run.flow.length := by
    rw [FlowTree.length, run.flow.filled]
    exact run.flow.inside
  refine ⟨⟨tracked, cached stands.cached, ?_, fun free => ?_⟩, by rw [whole]⟩
  · rw [whole]
    simp only
    rw [spec.here, FlowTree.pushed_old spec _ inside]
    exact stands.reached
  · rw [whole] at free ⊢
    simp only at free ⊢
    rw [spec.here, getElem?_append_left (by rw [stands.tracks.rows]; exact inside)]
    exact stands.idle free

theorem step_exact {state : FlowState} {event : FlowEvent} (exact : FlowExact next prompt root state)
    (honest : state.Honest event) : FlowExact next prompt root (state.step next config event) := by
  rw [step]
  by_cases stopped : state.stopped = true
  · rw [if_pos stopped]
    exact exact
  rw [if_neg stopped]
  obtain ⟨context, stands⟩ := exact.stands (Bool.eq_false_iff.mpr stopped)
  have tracks := stands.tracks
  have held := stands.cached
  cases event with
  | propose parent token =>
    apply after_exact exact
    intro moved went
    cases pushed : state.run.grow parent token with
    | error message =>
      rw [pushed] at went
      cases went
    | ok result =>
      rw [pushed] at went
      rw [← ok.inj went]
      exact ⟨context, grow_stands stands pushed⟩
  | copy parent token =>
    rw [act]
    cases pushed : state.run.grow parent token with
    | error message => exact exact
    | ok result =>
      have grown := grow_stands stands pushed
      exact after_exact exact (.ok result.2) fun moved same => ⟨context, ok.inj same ▸ grown⟩
  | send =>
    apply after_exact exact
    intro moved went
    obtain ⟨tracked, cached, _, _, _, _, rfl⟩ := send_tracks moved tracks (unsent_held tracks.based held) (unsent_drawn tracks.based held) went
    exact ⟨context, ⟨tracked, cached, stands.reached, stands.idle⟩, rfl⟩
  | rebase =>
    apply after_exact exact
    intro moved went
    obtain ⟨after, carries⟩ := rebase_carries tracks held went
    refine ⟨after, ⟨carries.tracks, carries.cached, ?_, fun free => ?_⟩, carries.emitted⟩
    · rw [carries.reached, carries.bonus, append_nil]
      exact stands.reached
    · exact carries.drawn (Or.inl (stands.idle (carries.bonus ▸ free)))
  | pushWaitingBonus =>
    apply after_exact exact
    intro moved went
    exact waiting_bonus_stands stands went
  | answer index reply closed =>
    rw [act]
    cases found : state.run.out[index]? with
    | none => exact exact
    | some waiting =>
      have member := mem_of_getElem? found
      refine take_answer_exact { state.run with out := state.run.out.eraseIdx index } waiting reply
        closed context exact.decoded ⟨{ tracks with epochs := ?_, answers := ?_ },
          { held with }, stands.reached, stands.idle⟩ ?_ ?_
      · exact fun other kept => tracks.epochs other (mem_of_mem_eraseIdx kept)
      · exact fun other kept => tracks.answers other (mem_of_mem_eraseIdx kept)
      · intro place placed offset token row read put
        exact (tracks.answers waiting member place placed offset token row read put).2
      · intro tokenIds same count
        rw [same] at honest
        exact honest waiting found count

end Steps

theorem flow_emits_decoded (next : List Token → Token) (config : FlowConfig) (prompt generated : List Token) (root : Token)
    (flow : FlowTree) (began : FlowTree.new prompt.length root = .ok flow) (events : List FlowEvent)
    (honest : RunMeets (step next config) FlowState.Honest ⟨.start flow prompt generated, false⟩ events) :
    let state := run (step next config) ⟨.start flow prompt generated, false⟩ events
    state.run.emitted = decode (fun tokens => next (prompt ++ root :: tokens)) state.run.emitted.length ∧
      (state.stopped = false → state.run.bonusWaiting = none → (state.run.draws[state.run.flow.here]?).join = none) := by
  obtain ⟨base, tokens, here, path⟩ := FlowTree.new_spec began
  have undrawn : Right next flow [none] prompt := fun row token found => by
    rcases List.getElem?_eq_some_iff.mp found with ⟨inside, none⟩
    rw [List.getElem_singleton] at none
    cases none
  have tracks : Tracks next prompt (.start flow prompt generated) :=
    ⟨base.symm, by rw [FlowTree.length, start, tokens]; rfl, undrawn, nofun, nofun, nofun⟩
  have start : FlowExact next prompt root ⟨.start flow prompt generated, false⟩ := by
    refine ⟨decoded_nil _, fun _ => ⟨prompt, tracks, ⟨(append_nil prompt).symm, Nat.zero_le _⟩, ?_, fun _ => ?_⟩⟩
    · simp only [start, here, path]
      exact append_nil _
    · simp only [start, here]
      rfl
  have exact := run_invariant FlowState.Honest (FlowExact next prompt root)
    (fun state event exact honest => step_exact exact honest) _ events start honest
  refine ⟨exact.decoded, fun goes free => ?_⟩
  obtain ⟨context, stands⟩ := exact.stands goes
  exact stands.idle free

def sampleFlow : FlowTree where
  tree :=
    { base := 1
      parents := [none]
      depths := [0]
      based := Nat.one_pos
      few := by decide
      ordered := (DraftTree.survey_sound [] [0] DraftTree.ordered_nil rfl).1
      measured := rfl }
  tokens := [40]
  here := 0
  filled := rfl
  inside := Nat.one_pos

-- The model counts on from 40. A wrong guess and the right one are answered, the
-- guess behind it is missed, the tree is rebased, and a forward from before the
-- rebase is answered after it.
def sampleEvents : List FlowEvent :=
  [.propose 0 50, .propose 0 41, .send, .propose 2 60, .send, .answer 0 (.drawn [41, 42, 42]) false, .rebase,
    .answer 0 (.drawn [43]) false, .answer 0 (.drawn [41, 42, 43]) false]

def sampleNext (tokens : List Token) : Token := UInt32.ofNat (39 + tokens.length)

def sampleState : FlowState := run (step sampleNext ⟨100, [7]⟩) ⟨.start sampleFlow [9] [40], false⟩ sampleEvents

theorem flow_emits_decoded_sample :
    FlowTree.new [9].length 40 = .ok sampleFlow ∧
      RunMeets (step sampleNext ⟨100, [7]⟩) FlowState.Honest ⟨.start sampleFlow [9] [40], false⟩ sampleEvents ∧
      sampleState.run.emitted = [41, 42, 43] ∧
      sampleState.run.emitted = decode (fun tokens => sampleNext ([9] ++ 40 :: tokens)) sampleState.run.emitted.length ∧
      (sampleState.run.draws[sampleState.run.flow.here]?).join = none := by
  have honest : RunMeets (step sampleNext ⟨100, [7]⟩) FlowState.Honest ⟨.start sampleFlow [9] [40], false⟩
      sampleEvents := by decide +kernel
  obtain ⟨decoded, idle⟩ := flow_emits_decoded sampleNext ⟨100, [7]⟩ [9] [40] 40 sampleFlow rfl sampleEvents honest
  exact ⟨rfl, honest, by decide +kernel, decoded, idle (by decide +kernel) (by decide +kernel)⟩

end SwarmLlm.Inference
