import NexusAuth.Connection.Model

/-!
# Replies reach their callers

A call is registered from its start until it returns or its reply arrives, and the table has an
entry for it just as long, whatever the order of writes, replies, timeouts and clean-ups.  The
one thing that ends a call and leaves its entry behind is dropping the future: an entry of a
dropped call stays until a reply for it arrives, and for ever if none does.
-/

namespace NexusAuth.Connection

open Std (ExtTreeMap)
open NexusAuth.Lib.OrderedMap

/-! ## Notions -/

def Call.Registered (call : Call) : Prop :=
  call.slot = .empty ∧ ∀ outcome, call.phase ≠ .returned outcome

def Call.Waiting (call : Call) : Prop :=
  call.slot = .empty ∧ (call.phase = .writing ∨ call.phase = .waiting)

/-- No call is about to take its entry out of the table. -/
def Channel.Quiescent (ch : Channel) : Prop := ∀ call ∈ ch.calls, call.failure = none

def Event.started : Event → Option CallId
  | .start id => some id
  | _ => none

def started (events : List Event) : List CallId := events.filterMap Event.started

/-- No future was dropped while its call was registered. -/
def Kept (events : List Event) : Prop :=
  ∀ (before after : List Event) (n : Nat) (call : Call), events = before ++ Event.drop n :: after →
    (Channel.after before).calls[n]? = some call → ¬call.Registered

def Heard (events : List Event) (id : CallId) (outcome : Outcome) : Prop :=
  ∃ reply, .reply reply ∈ events ∧ reply.id = id ∧ reply.outcome = outcome

/-- Where the outcome of the call number `n` comes from: a reply with its id, the error of its
write, or its timeout. -/
inductive Explained (events : List Event) (n : Nat) (id : CallId) : Outcome → Prop
  | reply {outcome : Outcome} (h : Heard events id outcome) : Explained events n id outcome
  | write {e : String} (h : .written n (some e) ∈ events) :
      Explained events n id (.error (.new "io_error" e))
  | timeout (h : .polled n true ∈ events) :
      Explained events n id (.error (.new "timeout" "control command timed out"))

structure Call.Fair (events : List Event) (n : Nat) (call : Call) : Prop where
  closed : call.slot = .closed → ∃ outcome, call.phase = .returned outcome
  heard : ∀ outcome, call.slot = .sent outcome → Heard events call.id outcome
  failed : ∀ e, call.failure = some e → Explained events n call.id (.error e)
  returned : ∀ outcome, call.phase = .returned outcome → Explained events n call.id outcome

structure Sound (events : List Event) (ch : Channel) : Prop where
  ids : ch.calls.map Call.id = started events
  table : ∀ (id : CallId) (n : Nat), ch.pending[id]? = some n ↔
    ∃ call : Call, ch.calls[n]? = some call ∧ call.id = id ∧ call.Registered
  fair : ∀ (n : Nat) (call : Call), ch.calls[n]? = some call → call.Fair events n

variable {events : List Event} {event : Event} {ch : Channel} {n : Nat} {call : Call}

theorem Heard.append {id : CallId} {outcome : Outcome} (h : Heard events id outcome)
    (more : List Event) : Heard (events ++ more) id outcome := by
  obtain ⟨reply, hmem, hid, houtcome⟩ := h
  exact ⟨reply, List.mem_append_left _ hmem, hid, houtcome⟩

theorem Explained.append {id : CallId} {outcome : Outcome} (h : Explained events n id outcome)
    (more : List Event) : Explained (events ++ more) n id outcome := by
  cases h with
  | reply h => exact .reply (h.append more)
  | write h => exact .write (List.mem_append_left _ h)
  | timeout h => exact .timeout (List.mem_append_left _ h)

theorem Call.Fair.append (h : call.Fair events n) (more : List Event) :
    call.Fair (events ++ more) n where
  closed := h.closed
  heard outcome hslot := (h.heard outcome hslot).append more
  failed e hfailure := (h.failed e hfailure).append more
  returned outcome hphase := (h.returned outcome hphase).append more

theorem after_append (events more : List Event) :
    Channel.after (events ++ more) = more.foldl Channel.step (Channel.after events) :=
  List.foldl_append

theorem started_append (events more : List Event) :
    started (events ++ more) = started events ++ started more :=
  List.filterMap_append

theorem nodup_of_append {more : List Event} (h : (started (events ++ more)).Nodup) :
    (started events).Nodup := by
  rw [started_append, List.nodup_append] at h
  exact h.1

theorem Sound.index_eq (h : Sound events ch) (hids : (started events).Nodup) {m : Nat}
    {other : Call} (hcall : ch.calls[n]? = some call) (hother : ch.calls[m]? = some other)
    (hid : other.id = call.id) : m = n := by
  rw [← h.ids] at hids
  have hn : (ch.calls.map Call.id)[n]? = some call.id := by rw [List.getElem?_map, hcall]; rfl
  have hm : (ch.calls.map Call.id)[m]? = some call.id := by
    rw [List.getElem?_map, hother, Option.map_some, hid]
  have hlt : m < (ch.calls.map Call.id).length := (List.getElem?_eq_some_iff.mp hm).1
  exact (List.getElem?_inj hlt hids).mp (hm.trans hn.symm)

/-! ## Changes of one call -/

theorem getElem?_modify {f : Call → Call} {m : Nat} :
    (ch.modify n f).calls[m]? = if n = m then ch.calls[m]?.map f else ch.calls[m]? := by
  rw [Channel.modify, List.getElem?_modify]
  split <;> simp

theorem map_id_modify {f : Call → Call} (hf : ∀ call, (f call).id = call.id) :
    (ch.modify n f).calls.map Call.id = ch.calls.map Call.id := by
  apply List.ext_getElem?
  intro m
  rw [List.getElem?_map, List.getElem?_map, getElem?_modify]
  split
  · cases ch.calls[m]? with
    | none => rfl
    | some call => exact congrArg some (hf call)
  · rfl

theorem Sound.modify {f : Call → Call} (h : Sound events ch)
    (hevent : started (events ++ [event]) = started events)
    (hid : ∀ call, (f call).id = call.id)
    (hregistered : ∀ call, (f call).Registered ↔ call.Registered)
    (hfair : ∀ call, call.Fair events n → (f call).Fair (events ++ [event]) n) :
    Sound (events ++ [event]) (ch.modify n f) where
  ids := by rw [map_id_modify hid, hevent, h.ids]
  table id m := by
    rw [show (ch.modify n f).pending = ch.pending from rfl, h.table, getElem?_modify]
    split
    · constructor
      · rintro ⟨call, hcall, hcallId, hreg⟩
        exact ⟨f call, by rw [hcall]; rfl, (hid call).trans hcallId, (hregistered call).mpr hreg⟩
      · rintro ⟨changed, hchanged, hcallId, hreg⟩
        obtain ⟨call, hcall, rfl⟩ := Option.map_eq_some_iff.mp hchanged
        exact ⟨call, hcall, (hid call).symm.trans hcallId, (hregistered call).mp hreg⟩
    · rfl
  fair m changed hchanged := by
    rw [getElem?_modify] at hchanged
    split at hchanged
    · rename_i hm
      obtain ⟨call, hcall, rfl⟩ := Option.map_eq_some_iff.mp hchanged
      exact hm ▸ hfair call (hm ▸ h.fair m call hcall)
    · exact (h.fair m changed hchanged).append _

theorem Sound.erase {f : Call → Call} (h : Sound events ch) (hids : (started events).Nodup)
    (hevent : started (events ++ [event]) = started events)
    (hcall : ch.calls[n]? = some call) (hid : ∀ call, (f call).id = call.id)
    (hdone : ¬(f call).Registered) (hfair : (f call).Fair (events ++ [event]) n) :
    Sound (events ++ [event])
      { ch.modify n f with pending := ch.pending.erase call.id } where
  ids := by
    rw [show ({ ch.modify n f with pending := ch.pending.erase call.id } : Channel).calls =
      (ch.modify n f).calls from rfl, map_id_modify hid, hevent, h.ids]
  table id m := by
    change (ch.pending.erase call.id)[id]? = some m ↔
      ∃ call : Call, (ch.modify n f).calls[m]? = some call ∧ call.id = id ∧ call.Registered
    rw [ExtTreeMap.getElem?_erase, getElem?_modify]
    by_cases hsame : call.id = id
    · rw [if_pos (compare_eq_iff_eq.mpr hsame)]
      constructor
      · intro hnone
        cases hnone
      rintro ⟨changed, hchanged, hcallId, hreg⟩
      split at hchanged
      · rename_i hm
        rw [← hm, hcall] at hchanged
        obtain rfl := Option.some.inj hchanged
        exact (hdone hreg).elim
      · rename_i hm
        exact (hm (h.index_eq hids hcall hchanged (hcallId.trans hsame.symm)).symm).elim
    · rw [if_neg (fun heq => hsame (compare_eq_iff_eq.mp heq)), h.table]
      split
      · rename_i hm
        rw [← hm, hcall, Option.map_some]
        constructor
        · rintro ⟨other, hother, hcallId, -⟩
          exact (hsame (Option.some.inj hother ▸ hcallId)).elim
        · rintro ⟨changed, hchanged, hcallId, -⟩
          rw [← Option.some.inj hchanged, hid] at hcallId
          exact (hsame hcallId).elim
      · rfl
  fair m changed hchanged := by
    change (ch.modify n f).calls[m]? = some changed at hchanged
    rw [getElem?_modify] at hchanged
    split at hchanged
    · rename_i hm
      rw [← hm, hcall] at hchanged
      obtain rfl := Option.some.inj hchanged
      exact hm ▸ hfair
    · exact (h.fair m changed hchanged).append _

/-! ## One event -/

namespace Call

theorem Fair.move {phase : Phase} {more : List Event} (h : call.Fair events n)
    (hphase : ∀ outcome, call.phase ≠ .returned outcome)
    (hfailed : ∀ e, ({ call with phase := phase } : Call).failure = some e →
      Explained (events ++ more) n call.id (.error e))
    (hreturned : ∀ outcome, phase = .returned outcome →
      Explained (events ++ more) n call.id outcome) :
    ({ call with phase := phase } : Call).Fair (events ++ more) n where
  closed hslot := by
    obtain ⟨outcome, hend⟩ := h.closed hslot
    exact (hphase outcome hend).elim
  heard outcome hslot := (h.heard outcome hslot).append more
  failed := hfailed
  returned := hreturned

theorem id_write (error : Option String) (call : Call) : (call.write error).id = call.id := by
  unfold write
  split <;> rfl

theorem registered_write (error : Option String) (call : Call) :
    (call.write error).Registered ↔ call.Registered := by
  obtain ⟨id, phase, slot⟩ := call
  cases phase <;> cases error <;> simp [write, Registered]

theorem fair_write {error : Option String} (h : call.Fair events n) :
    (call.write error).Fair (events ++ [.written n error]) n := by
  unfold write
  split
  · rename_i hphase
    apply h.move (by simp [hphase])
    · simp [failure]
    · simp
  · rename_i e hphase
    apply h.move (by simp [hphase])
    · intro e' hfailure
      obtain rfl : SidecarError.new "io_error" e = e' := Option.some.inj hfailure
      exact .write (List.mem_append_right _ List.mem_cons_self)
    · simp
  · exact h.append _

theorem id_poll (elapsed : Bool) (call : Call) : (call.poll elapsed).id = call.id := by
  unfold poll
  split
  · split
    · rfl
    · split <;> rfl
  · rfl

theorem registered_poll (elapsed : Bool) (call : Call) :
    (call.poll elapsed).Registered ↔ call.Registered := by
  obtain ⟨id, phase, slot⟩ := call
  cases phase <;> cases slot <;> cases elapsed <;> simp [poll, receive, Registered]

theorem fair_poll {elapsed : Bool} (h : call.Fair events n) :
    (call.poll elapsed).Fair (events ++ [.polled n elapsed]) n := by
  unfold poll
  split
  · rename_i hphase
    have hopen : ∀ outcome, call.phase ≠ .returned outcome := by simp [hphase]
    split
    · rename_i outcome hreceive
      apply h.move hopen
      · simp [failure]
      · rintro _ ⟨⟩
        cases hslot : call.slot with
        | empty => simp [receive, hslot] at hreceive
        | sent value =>
            obtain rfl : value = outcome := by simpa [receive, hslot] using hreceive
            exact .reply ((h.heard value hslot).append _)
        | closed =>
            obtain ⟨ended, hend⟩ := h.closed hslot
            exact (hopen ended hend).elim
    · split
      · rename_i helapsed
        apply h.move hopen
        · intro e hfailure
          obtain rfl : SidecarError.new "timeout" "control command timed out" = e :=
            Option.some.inj hfailure
          exact .timeout (List.mem_append_right _ (by simp [helapsed]))
        · simp
      · exact h.append _
  · exact h.append _

theorem id_drop (call : Call) : call.drop.id = call.id := by
  unfold drop
  split <;> rfl

theorem registered_drop (call : Call) : call.drop.Registered ↔ call.Registered := by
  obtain ⟨id, phase, slot⟩ := call
  cases phase <;> simp [drop, Registered]

theorem fair_drop {more : List Event} (h : call.Fair events n) :
    call.drop.Fair (events ++ more) n := by
  unfold drop
  split
  · exact h.append _
  · rename_i hphase
    apply h.move hphase
    · simp [failure]
    · simp

theorem id_close (call : Call) : call.close.id = call.id := by
  unfold close
  split <;> rfl

theorem sent_of_close {outcome : Outcome} (h : call.close.slot = .sent outcome) :
    call.slot = .sent outcome := by
  unfold close at h
  split at h
  · cases h
  all_goals exact h

end Call

theorem started_append_of_none (h : event.started = none) :
    started (events ++ [event]) = started events := by
  simp [started, h]

/-- The entry that a call takes out of the table is its own, so that at most its own sender is
dropped. -/
theorem Sound.remove_eq (h : Sound events ch) (hids : (started events).Nodup)
    (hcall : ch.calls[n]? = some call) :
    ∃ f : Call → Call, (∀ call, (f call).id = call.id) ∧
      (∀ call outcome, (f call).slot = .sent outcome → call.slot = .sent outcome) ∧
      ch.remove call.id = { ch.modify n f with pending := ch.pending.erase call.id } := by
  cases hentry : ch.pending[call.id]? with
  | none =>
      refine ⟨id, fun _ => rfl, fun _ _ hsent => hsent, ?_⟩
      rw [Channel.remove, Channel.closeSender, hentry, Channel.modify, List.modify_id]
  | some m =>
      obtain ⟨other, hother, hid, -⟩ := (h.table _ _).mp hentry
      refine ⟨Call.close, Call.id_close, fun _ _ hsent => Call.sent_of_close hsent, ?_⟩
      rw [Channel.remove, Channel.closeSender, hentry, h.index_eq hids hcall hother hid]

theorem modify_modify {f g : Call → Call} {pending : BTreeMap CallId Nat} :
    ({ ch.modify n f with pending := pending } : Channel).modify n g =
      { ch.modify n (g ∘ f) with pending := pending } := by
  simp only [Channel.modify, List.modify_modify_eq]

theorem Sound.append (h : Sound events ch) (hevent : event.started = none) :
    Sound (events ++ [event]) ch where
  ids := by rw [started_append_of_none hevent, h.ids]
  table := h.table
  fair m call hcall := (h.fair m call hcall).append _

theorem Call.Fair.fair_failure {e : SidecarError} {f : Call → Call} {more : List Event}
    (h : call.Fair events n) (hfailure : call.failure = some e) (hid : (f call).id = call.id)
    (hslot : ∀ outcome, (f call).slot = .sent outcome → call.slot = .sent outcome) :
    ({ f call with phase := .returned (.error e) } : Call).Fair (events ++ more) n where
  closed _ := ⟨.error e, rfl⟩
  heard outcome hsent := by
    change Heard _ (f call).id outcome
    rw [hid]
    exact (h.heard outcome (hslot outcome hsent)).append more
  failed _ hnone := by cases hnone
  returned outcome hphase := by
    obtain rfl := Phase.returned.inj hphase
    change Explained _ n (f call).id _
    rw [hid]
    exact (h.failed e hfailure).append more

theorem sound_cleanup (h : Sound events ch) (hids : (started events).Nodup) :
    Sound (events ++ [.cleanup n]) (ch.cleanup n) := by
  unfold Channel.cleanup
  split
  · exact h.append rfl
  rename_i call hcall
  split
  · exact h.append rfl
  rename_i e hfailure
  obtain ⟨f, hid, hsent, hremove⟩ := h.remove_eq hids hcall
  rw [hremove, modify_modify]
  refine h.erase hids (started_append_of_none rfl) hcall (fun call => hid call) ?_ ?_
  · exact fun hreg => hreg.2 _ rfl
  · exact (h.fair n call hcall).fair_failure hfailure (hid call) (hsent call)

theorem sound_deliver {reply : Reply} (h : Sound events ch) (hids : (started events).Nodup) :
    Sound (events ++ [.reply reply]) (ch.deliver reply) := by
  unfold Channel.deliver
  split
  · exact h.append rfl
  rename_i n hentry
  obtain ⟨call, hcall, hid, -⟩ := (h.table _ _).mp hentry
  have hfair := (h.fair n call hcall).append [.reply reply]
  have hmem : Event.reply reply ∈ events ++ [.reply reply] :=
    List.mem_append_right _ List.mem_cons_self
  rw [← hid]
  refine h.erase hids (started_append_of_none rfl) hcall (fun _ => rfl) ?_ ?_
  · rintro ⟨hempty, -⟩
    cases hempty
  · exact {
      closed := fun hclosed => by cases hclosed
      heard := fun outcome hsent => by
        obtain rfl := Slot.sent.inj hsent
        exact ⟨reply, hmem, hid.symm, rfl⟩
      failed := hfair.failed
      returned := hfair.returned }

theorem getElem?_concat {α : Type} {l : List α} {a b : α} {m : Nat} :
    (l ++ [a])[m]? = some b ↔ l[m]? = some b ∨ m = l.length ∧ b = a := by
  rw [List.getElem?_append]
  split
  · rename_i hlt
    constructor
    · exact .inl
    · rintro (h | ⟨rfl, -⟩)
      · exact h
      · exact (Nat.lt_irrefl _ hlt).elim
  · rename_i hge
    rw [List.getElem?_eq_none (Nat.le_of_not_lt hge), List.getElem?_singleton]
    simp only [reduceCtorEq, false_or]
    split
    · rename_i hzero
      have hm : m = l.length := by omega
      simp [hm, eq_comm]
    · rename_i hpos
      have hm : m ≠ l.length := by omega
      simp [hm]

theorem sound_register {id : CallId} (h : Sound events ch)
    (hids : (started (events ++ [.start id])).Nodup) :
    Sound (events ++ [.start id]) (ch.register id) := by
  have hstarted : started (events ++ [.start id]) = started events ++ [id] := by
    simp [started, Event.started]
  have hfresh : ∀ (m : Nat) (call : Call), ch.calls[m]? = some call → call.id ≠ id := by
    intro m call hcall hid
    rw [hstarted, List.nodup_append] at hids
    have hmem : call.id ∈ started events := by
      rw [← h.ids]
      exact List.mem_map_of_mem (List.mem_of_getElem? hcall)
    exact hids.2.2 call.id hmem id (by simp) hid
  have hentry : ch.pending[id]? = none := by
    rw [Option.eq_none_iff_forall_ne_some]
    intro m hm
    obtain ⟨call, hcall, hid, -⟩ := (h.table _ _).mp hm
    exact hfresh m call hcall hid
  have hcalls : (ch.register id).calls = ch.calls ++ [⟨id, .writing, .empty⟩] := by
    simp only [Channel.register, Channel.closeSender, hentry]
  constructor
  · rw [hcalls, hstarted, List.map_append, h.ids]
    rfl
  · intro id' m
    change (ch.pending.insert id ch.calls.length)[id']? = some m ↔ _
    simp only [hcalls, ExtTreeMap.getElem?_insert, compare_eq_iff_eq, getElem?_concat]
    by_cases hsame : id = id'
    · rw [if_pos hsame, Option.some.injEq]
      constructor
      · rintro rfl
        exact ⟨_, .inr ⟨rfl, rfl⟩, hsame, rfl, by simp⟩
      · rintro ⟨call, hcall | ⟨rfl, -⟩, hid, -⟩
        · exact (hfresh m call hcall (hid.trans hsame.symm)).elim
        · rfl
    · rw [if_neg hsame, h.table]
      constructor
      · rintro ⟨call, hcall, hid, hreg⟩
        exact ⟨call, .inl hcall, hid, hreg⟩
      · rintro ⟨call, hcall | ⟨-, rfl⟩, hid, hreg⟩
        · exact ⟨call, hcall, hid, hreg⟩
        · exact (hsame hid).elim
  · intro m call hcall
    rw [hcalls, getElem?_concat] at hcall
    obtain hcall | ⟨-, rfl⟩ := hcall
    · exact (h.fair m call hcall).append _
    · exact ⟨by simp, by simp, by simp [Call.failure], by simp⟩

theorem sound_step (h : Sound events ch) (hids : (started (events ++ [event])).Nodup) :
    Sound (events ++ [event]) (ch.step event) := by
  have hbefore := nodup_of_append hids
  cases event with
  | start id => exact sound_register h hids
  | written n error =>
      exact h.modify (started_append_of_none rfl) (Call.id_write error)
        (Call.registered_write error) fun _ => Call.fair_write
  | polled n elapsed =>
      exact h.modify (started_append_of_none rfl) (Call.id_poll elapsed)
        (Call.registered_poll elapsed) fun _ => Call.fair_poll
  | cleanup n => exact sound_cleanup h hbefore
  | reply reply => exact sound_deliver h hbefore
  | drop n =>
      exact h.modify (started_append_of_none rfl) Call.id_drop Call.registered_drop
        fun _ => Call.fair_drop

theorem sound_after (hids : (started events).Nodup) : Sound events (Channel.after events) := by
  induction events using List.reverseRecOn with
  | nil =>
      refine ⟨rfl, fun id n => ?_, fun n call hcall => by cases hcall⟩
      simp [Channel.after, Channel.empty]
  | append_singleton events event ih =>
      rw [after_append]
      exact sound_step (ih (nodup_of_append hids)) hids

/-! ## The end of a call is final -/

def Phase.IsEnd : Phase → Prop
  | .returned _ | .dropped => True
  | _ => False

theorem Call.phase_of_isEnd (h : call.phase.IsEnd) :
    (∀ error, (call.write error).phase = call.phase) ∧
      (∀ elapsed, (call.poll elapsed).phase = call.phase) ∧ call.drop.phase = call.phase ∧
      call.failure = none := by
  obtain ⟨id, phase, slot⟩ := call
  cases phase <;> simp_all [Phase.IsEnd, write, poll, drop, failure]

theorem phase_modify {f : Call → Call} {m : Nat} (hcall : ch.calls[n]? = some call)
    (hf : (f call).phase = call.phase) :
    ∃ call', (ch.modify m f).calls[n]? = some call' ∧ call'.phase = call.phase := by
  rw [getElem?_modify, hcall]
  split
  · exact ⟨f call, rfl, hf⟩
  · exact ⟨call, rfl, rfl⟩

theorem phase_closeSender (id : CallId) (hcall : ch.calls[n]? = some call) :
    ∃ call', (ch.closeSender id).calls[n]? = some call' ∧ call'.phase = call.phase := by
  have hclose : call.close.phase = call.phase := by
    unfold Call.close
    split <;> rfl
  unfold Channel.closeSender
  split
  · exact ⟨call, hcall, rfl⟩
  · exact phase_modify hcall hclose

theorem phase_step (event : Event) (hcall : ch.calls[n]? = some call) (hend : call.phase.IsEnd) :
    ∃ call', (ch.step event).calls[n]? = some call' ∧ call'.phase = call.phase := by
  obtain ⟨hwrite, hpoll, hdrop, hfailure⟩ := Call.phase_of_isEnd hend
  cases event with
  | start id =>
      obtain ⟨call', hcall', hphase⟩ := phase_closeSender id hcall
      refine ⟨call', ?_, hphase⟩
      change ((ch.closeSender id).calls ++ [_])[n]? = some call'
      exact getElem?_concat.mpr (.inl hcall')
  | written m error => exact phase_modify hcall (hwrite error)
  | polled m elapsed => exact phase_modify hcall (hpoll elapsed)
  | drop m => exact phase_modify hcall hdrop
  | reply reply =>
      change ∃ call', (ch.deliver reply).calls[n]? = some call' ∧ _
      unfold Channel.deliver
      split
      · exact ⟨call, hcall, rfl⟩
      · exact phase_modify hcall rfl
  | cleanup m =>
      change ∃ call', (ch.cleanup m).calls[n]? = some call' ∧ _
      unfold Channel.cleanup
      split
      · exact ⟨call, hcall, rfl⟩
      rename_i other hother
      split
      · exact ⟨call, hcall, rfl⟩
      rename_i e he
      -- the call that returns is another one
      have hne : m ≠ n := by
        rintro rfl
        rw [Option.some.inj (hother.symm.trans hcall), hfailure] at he
        cases he
      obtain ⟨call', hcall', hphase⟩ := phase_closeSender other.id hcall
      refine ⟨call', ?_, hphase⟩
      rw [getElem?_modify, if_neg hne]
      exact hcall'

theorem phase_after (hcall : (Channel.after events).calls[n]? = some call)
    (hend : call.phase.IsEnd) (more : List Event) :
    ∃ call', (Channel.after (events ++ more)).calls[n]? = some call' ∧
      call'.phase = call.phase := by
  induction more using List.reverseRecOn with
  | nil =>
      rw [List.append_nil]
      exact ⟨call, hcall, rfl⟩
  | append_singleton more event ih =>
      obtain ⟨call', hcall', hphase⟩ := ih
      obtain ⟨call'', hcall'', hphase'⟩ := phase_step event hcall' (hphase ▸ hend)
      refine ⟨call'', ?_, hphase'.trans hphase⟩
      rw [← List.append_assoc, after_append]
      exact hcall''

/-! ## Dropped calls -/

def Channel.NoLeak (ch : Channel) : Prop :=
  ∀ (n : Nat) (call : Call), ch.calls[n]? = some call → call.phase = .dropped → call.slot ≠ .empty

theorem Channel.NoLeak.modify {f : Call → Call} (h : ch.NoLeak)
    (hf : ∀ call, ch.calls[n]? = some call → (f call).phase = .dropped →
      (f call).slot ≠ .empty) : (ch.modify n f).NoLeak := by
  intro m changed hchanged
  rw [getElem?_modify] at hchanged
  split at hchanged
  · rename_i hm
    obtain ⟨call, hcall, rfl⟩ := Option.map_eq_some_iff.mp hchanged
    exact hf call (hm ▸ hcall)
  · exact h m changed hchanged

theorem Channel.NoLeak.closeSender (h : ch.NoLeak) (id : CallId) : (ch.closeSender id).NoLeak := by
  unfold Channel.closeSender
  split
  · exact h
  · apply h.modify
    intro call _ _
    unfold Call.close
    split <;> simp_all

theorem Call.write_of_dropped {error : Option String} (h : (call.write error).phase = .dropped) :
    call.write error = call := by
  unfold write at h ⊢
  split at h
  · cases h
  · cases h
  · rfl

theorem Call.poll_of_dropped {elapsed : Bool} (h : (call.poll elapsed).phase = .dropped) :
    call.poll elapsed = call := by
  obtain ⟨id, phase, slot⟩ := call
  cases phase with
  | waiting => cases slot <;> cases elapsed <;> cases h
  | _ => rfl

theorem noLeak_step (h : ch.NoLeak)
    (hkept : ∀ n call, event = .drop n → ch.calls[n]? = some call → ¬call.Registered) :
    (ch.step event).NoLeak := by
  cases event with
  | start id =>
      intro m call hcall hphase
      obtain hcall | ⟨-, rfl⟩ := getElem?_concat.mp hcall
      · exact h.closeSender id m call hcall hphase
      · cases hphase
  | written n error =>
      apply h.modify
      intro call hcall hphase
      have hsame := Call.write_of_dropped hphase
      rw [hsame] at hphase ⊢
      exact h n call hcall hphase
  | polled n elapsed =>
      apply h.modify
      intro call hcall hphase
      have hsame := Call.poll_of_dropped hphase
      rw [hsame] at hphase ⊢
      exact h n call hcall hphase
  | cleanup n =>
      change (ch.cleanup n).NoLeak
      unfold Channel.cleanup
      split
      · exact h
      rename_i call hcall
      split
      · exact h
      · have hremove : (ch.remove call.id).NoLeak := h.closeSender call.id
        apply hremove.modify
        intro call _ hphase
        cases hphase
  | reply reply =>
      change (ch.deliver reply).NoLeak
      unfold Channel.deliver
      split
      · exact h
      · rename_i n hentry
        have hsent : (ch.modify n (.send reply.outcome)).NoLeak := by
          apply h.modify
          intro call _ _ hempty
          cases hempty
        exact hsent
  | drop n =>
      apply h.modify
      intro call hcall hphase hempty
      have hregistered : call.drop.Registered := ⟨hempty, by simp [hphase]⟩
      exact hkept n call rfl hcall ((Call.registered_drop call).mp hregistered)

theorem noLeak_after (hkept : Kept events) : (Channel.after events).NoLeak := by
  induction events using List.reverseRecOn with
  | nil =>
      intro n call hcall
      cases hcall
  | append_singleton events event ih =>
      have hbefore : Kept events := by
        intro before after n call heq
        exact hkept before (after ++ [event]) n call (by rw [heq, List.append_assoc]; rfl)
      rw [after_append]
      apply noLeak_step (ih hbefore)
      rintro n call rfl
      exact hkept events [] n call rfl

theorem Call.waiting_iff (hfailure : call.failure = none)
    (hleak : call.phase = .dropped → call.slot ≠ .empty) : call.Registered ↔ call.Waiting := by
  obtain ⟨id, phase, slot⟩ := call
  cases phase <;> simp_all [Registered, Waiting, failure]

/-- With distinct ids, and however writes, polls, timeouts, replies and dropped futures follow
each other: the outcome of a call is final, and it is that of a reply with the id of the call,
the error of its write or its timeout.  If no registered call was dropped, then whenever no call
is about to clean up, the table has the ids of the waiting calls and no others. -/
theorem replies_reach_their_callers (events : List Event) (hids : (started events).Nodup) :
    (∀ (n : Nat) (call : Call) (outcome : Outcome),
      (Channel.after events).calls[n]? = some call → call.phase = .returned outcome →
      Explained events n call.id outcome ∧ ∀ more, ∃ call' : Call,
        (Channel.after (events ++ more)).calls[n]? = some call' ∧
          call'.phase = .returned outcome) ∧
    (Kept events → (Channel.after events).Quiescent → ∀ id : CallId,
      id ∈ (Channel.after events).pending ↔
        ∃ call ∈ (Channel.after events).calls, call.id = id ∧ call.Waiting) := by
  have hsound := sound_after hids
  constructor
  · intro n call outcome hcall hphase
    refine ⟨(hsound.fair n call hcall).returned outcome hphase, fun more => ?_⟩
    have hend : call.phase.IsEnd := by
      rw [hphase]
      trivial
    obtain ⟨call', hcall', hsame⟩ := phase_after hcall hend more
    exact ⟨call', hcall', hsame.trans hphase⟩
  · intro hkept hquiescent id
    have hleak := noLeak_after hkept
    rw [ExtTreeMap.mem_iff_isSome_getElem?, Option.isSome_iff_exists]
    constructor
    · rintro ⟨n, hn⟩
      obtain ⟨call, hcall, hid, hregistered⟩ := (hsound.table id n).mp hn
      have hmem := List.mem_of_getElem? hcall
      exact ⟨call, hmem, hid,
        (Call.waiting_iff (hquiescent call hmem) (hleak n call hcall)).mp hregistered⟩
    · rintro ⟨call, hmem, hid, hwaiting⟩
      obtain ⟨n, hcall⟩ := List.getElem?_of_mem hmem
      have hregistered :=
        (Call.waiting_iff (hquiescent call hmem) (hleak n call hcall)).mpr hwaiting
      exact ⟨n, (hsound.table id n).mpr ⟨call, hcall, hid, hregistered⟩⟩

/-- Call 7 fails to be written and cleans up, call 8 gets its reply and call 9 waits. -/
def threeCalls : List Event :=
  [.start 7, .start 8, .written 0 (some "broken pipe"), .written 1 none,
    .reply ⟨5, true, none, none⟩,
    .reply ⟨8, true, some [1], none⟩, .cleanup 0, .start 9, .reply ⟨8, false, none, none⟩,
    .polled 1 true, .written 2 none]

theorem threeCalls_kept : Kept threeCalls := by
  intro before after n call heq
  have hmem : Event.drop n ∈ threeCalls := by simp [heq]
  simp [threeCalls] at hmem

/-- Only call 9 is in the table, and call 8 has returned what the first reply to it said. -/
theorem replies_reach_their_callers_of_three :
    (∀ id : CallId, id ∈ (Channel.after threeCalls).pending ↔
      ∃ call ∈ (Channel.after threeCalls).calls, call.id = id ∧ call.Waiting) ∧
    Explained threeCalls 1 8 (.ok [1]) := by
  have hids : (started threeCalls).Nodup := by decide
  have hquiescent : (Channel.after threeCalls).Quiescent := by
    unfold Channel.Quiescent
    decide +kernel
  have hcall : (Channel.after threeCalls).calls[1]? =
      some ⟨8, .returned (.ok [1]), .sent (.ok [1])⟩ := by
    decide +kernel
  obtain ⟨hended, htable⟩ := replies_reach_their_callers threeCalls hids
  exact ⟨htable threeCalls_kept hquiescent, (hended 1 _ _ hcall rfl).1⟩

/-! ## What a dropped future leaves behind -/

theorem Sound.id_eq {more : List Event} {ch' : Channel} {call' : Call} (h : Sound events ch)
    (h' : Sound (events ++ more) ch') (hcall : ch.calls[n]? = some call)
    (hcall' : ch'.calls[n]? = some call') : call'.id = call.id := by
  have hid : (started events)[n]? = some call.id := by
    rw [← h.ids, List.getElem?_map, hcall]
    rfl
  have hid' : (started (events ++ more))[n]? = some call'.id := by
    rw [← h'.ids, List.getElem?_map, hcall']
    rfl
  have hlt : n < (started events).length := (List.getElem?_eq_some_iff.mp hid).1
  rw [started_append, List.getElem?_append_left hlt, hid] at hid'
  exact (Option.some.inj hid').symm

/-- The entry of a call that is dropped while it is registered stays in the table as long as no
reply for it arrives. -/
theorem dropped_call_keeps_entry {more : List Event}
    (hids : (started (events ++ .drop n :: more)).Nodup)
    (hcall : (Channel.after events).calls[n]? = some call) (hregistered : call.Registered)
    (hreply : ∀ reply, .reply reply ∈ events ++ .drop n :: more → reply.id ≠ call.id) :
    call.id ∈ (Channel.after (events ++ .drop n :: more)).pending ∧
      ¬∃ call' ∈ (Channel.after (events ++ .drop n :: more)).calls,
        call'.id = call.id ∧ call'.Waiting := by
  have hbefore := nodup_of_append hids
  have hsound := sound_after hids
  -- right after the event the call is a dropped one
  have hdropped : (Channel.after (events ++ [.drop n])).calls[n]? = some call.drop := by
    rw [after_append]
    change (((Channel.after events).modify n .drop).calls)[n]? = some call.drop
    rw [getElem?_modify, if_pos rfl, hcall]
    rfl
  have hphase : call.drop.phase = .dropped := by
    unfold Call.drop
    split
    · rename_i outcome hreturned
      exact (hregistered.2 outcome hreturned).elim
    · rfl
  have hend : call.drop.phase.IsEnd := by
    rw [hphase]
    trivial
  obtain ⟨last, hlast, hsame⟩ := phase_after hdropped hend more
  rw [List.append_assoc] at hlast
  change (Channel.after (events ++ .drop n :: more)).calls[n]? = some last at hlast
  rw [hphase] at hsame
  have hid : last.id = call.id := (sound_after hbefore).id_eq hsound hcall hlast
  have hfair := hsound.fair n last hlast
  have hempty : last.slot = .empty := by
    cases hslot : last.slot with
    | empty => rfl
    | sent outcome =>
        obtain ⟨reply, hmem, hreplyId, -⟩ := hfair.heard outcome hslot
        exact (hreply reply hmem (hreplyId.trans hid)).elim
    | closed =>
        obtain ⟨outcome, hreturned⟩ := hfair.closed hslot
        rw [hsame] at hreturned
        cases hreturned
  constructor
  · have hentry : (Channel.after (events ++ .drop n :: more)).pending[call.id]? = some n :=
      (hsound.table _ _).mpr ⟨last, hlast, hid, hempty, by simp [hsame]⟩
    exact (ExtTreeMap.getElem?_eq_some_iff.mp hentry).fst
  · rintro ⟨other, hother, hotherId, hwaiting⟩
    obtain ⟨m, hm⟩ := List.getElem?_of_mem hother
    obtain rfl := hsound.index_eq hids hlast hm (hotherId.trans hid.symm)
    obtain rfl := Option.some.inj (hm.symm.trans hlast)
    rw [Call.Waiting, hsame] at hwaiting
    simp at hwaiting

/-- A call is written and then dropped by its owner before a reply or the timeout: no call waits
any more, no clean-up is left to do, and the entry is still there. -/
theorem dropped_future_leaks_entry :
    let events : List Event := [.start 7, .written 0 none, .drop 0]
    (started events).Nodup ∧ (Channel.after events).Quiescent ∧
      7 ∈ (Channel.after events).pending ∧
      ¬∃ call ∈ (Channel.after events).calls, call.id = 7 ∧ call.Waiting := by
  intro events
  have hcall : (Channel.after [.start 7, .written 0 none]).calls[0]? =
      some ⟨7, .waiting, .empty⟩ := by
    decide +kernel
  have hids : (started events).Nodup := by decide
  have hquiescent : (Channel.after events).Quiescent := by
    unfold Channel.Quiescent
    decide +kernel
  have hleaks := dropped_call_keeps_entry hids hcall ⟨rfl, by simp⟩ (by simp)
  exact ⟨hids, hquiescent, hleaks⟩

end NexusAuth.Connection
