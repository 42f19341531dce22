import CAres.Proof.Drain

/-! # `process_timeouts`

The walk of `queries_by_timeout` caches the successor of a query before it requeues the
query. The requeue touches no other query (`Frame.others`), and the cleanup after it frees
no query, so the cached successor is still live when the walk reaches it: the walk never
reads a freed query, and keeps `Inv`. -/

namespace CAres

open Function

variable {cfg : Config} {env : Env} {ch ch' : Channel}

theorem slistNext_mem {h h' : QueryId} :
    ∀ {l : List QueryId}, slistNext h l = some h' → h' ∈ l
  | a :: rest, hn => by
    unfold slistNext at hn
    split at hn
    · exact List.mem_cons_of_mem a (List.mem_of_mem_head? hn)
    · exact List.mem_cons_of_mem a (slistNext_mem hn)

theorem slistNext_ne {h h' : QueryId} :
    ∀ {l : List QueryId}, l.Nodup → slistNext h l = some h' → h' ≠ h
  | a :: rest, hl, hn => by
    unfold slistNext at hn
    split at hn
    · rename_i ha
      subst ha
      rintro rfl
      exact (List.nodup_cons.mp hl).1 (List.mem_of_mem_head? hn)
    · exact slistNext_ne (List.nodup_cons.mp hl).2 hn

@[simp] theorem checkCleanupConn_queries (ch : Channel) (fd : Nat) :
    (ch.checkCleanupConn cfg fd).queries = ch.queries := by
  unfold Channel.checkCleanupConn
  split
  · rfl
  · split
    · rfl
    · split <;> rfl

/-- The walk keeps the invariant from any entry that is live or the end of the list. -/
theorem processTimeoutsLoop_inv {now : Timeval} :
    ∀ (fuel : Nat) {ch : Channel} {node : Option QueryId}, Inv cfg ch →
      (∀ {h}, node = some h → (ch.queries h).isSome) →
      Inv cfg (processTimeoutsLoop cfg env now fuel ch node)
  | 0, _, _, hi, _ => by rw [processTimeoutsLoop]; exact hi
  | _ + 1, _, none, hi, _ => by rw [processTimeoutsLoop]; exact hi
  | fuel + 1, ch, some h, hi, hlive => by
    rw [processTimeoutsLoop]
    obtain ⟨q, hq⟩ := Option.isSome_iff_exists.mp (hlive rfl)
    simp only [hq]
    split
    case intro.isFalse => exact hi
    dsimp only
    have step : ∀ {ch₁ : Channel}, Inv cfg ch₁ → ch₁.queries = ch.queries → ∀ fd,
        Inv cfg (processTimeoutsLoop cfg env now fuel
          ((CAres.nextServer cfg env ch₁ h
            { q with errorStatus := .etimeout, timeouts := q.timeouts + 1 } now).checkCleanupConn
              cfg fd) (slistNext h ch.queriesByTimeout)) := by
      intro ch₁ hi₁ hq₁ fd
      have hh₀ : Held cfg ch₁ h q := Held.of_stored hi₁.wf (hq₁ ▸ hq)
      have hh : Held cfg ch₁ h { q with errorStatus := .etimeout, timeouts := q.timeouts + 1 } :=
        hh₀.congr rfl rfl hh₀.server_lt (show Status.etimeout ≠ .success by decide)
      have p : Post cfg h ch₁ (CAres.nextServer cfg env ch₁ h _ now) := nextServer_post hi₁.wf hh
      have hr : Retry cfg (CAres.nextServer cfg env ch₁ h _ now) :=
        hi₁.retry.nextServer hi₁.wf hh ⟨q, hq₁ ▸ hq, rfl, rfl, id⟩
      refine processTimeoutsLoop_inv fuel ((hi₁.dispatch p hr).checkCleanupConn _).1 fun hn => ?_
      rw [checkCleanupConn_queries, p.2.1.others (slistNext_ne hi.wf.slist_nodup hn), hq₁]
      exact hi.wf.slist_live (slistNext_mem hn)
    split
    · exact step hi rfl _
    · exact step (hi.emit (by simp [Event.Benign, Event.callbackOf]) (by trivial) (by trivial)
        (by exact nofun) (by rintro f ⟨⟩; trivial)) rfl _

theorem Inv.processTimeouts (hi : Inv cfg ch) {now : Timeval} :
    Inv cfg (CAres.processTimeouts cfg env ch now) :=
  processTimeoutsLoop_inv _ hi fun hn =>
    hi.wf.slist_live (List.mem_of_mem_head? hn)

end CAres
