/-
When a stall is cut off: the clock of a stream, read off the calls that were made of it.

A stream is asked to read, to write in two ways, to flush and to shut down. All but reading
share one clock, and the stream holds nothing of its past but that clock. Here the past is a
transcript, and the stall that a call falls into is what stands at its end: the calls, reads
left out, up to the last one that went on, failed or was cut off (`underWay`).

# Why the clock tells the stall

The clock is due when the first call of that stretch is as long ago as is allowed, and it is
stopped when the stretch is empty. That is so at the start, and each call keeps it so
(`due_after`): a read leaves both alone, a call that waits adds itself to the stretch and
starts the clock only if it is the first, and any other call empties the one and stops the
other. So the test that the stream makes of its clock is a test of the transcript
(`answer_eq`), and nothing more has to be known of the clock.
-/
import Mathlib.Data.List.DropRight
import Vitals.WriteDeadline

namespace Vitals.WriteDeadline

-- =============================================================== calls

/-- What a stream can be asked to do. -/
inductive Operation where
  | read
  | write
  | writeVectored
  | flush
  | shutdown
deriving DecidableEq, Repr

/-- What comes of it when it goes on: a number of bytes, or nothing. -/
abbrev Operation.Value : Operation → Type
  | read | write | writeVectored => Nat
  | flush | shutdown => Unit

/-- Whether it can be stalled by the peer. -/
def Operation.stalls : Operation → Bool
  | read => false
  | _ => true

/-- A call of a stream at some time, and what the stream within answers to it. -/
structure Call where
  operation : Operation
  time : Nat
  inner : Stream.Poll operation.Value

/-- The clock of a stream of which nothing has been asked. -/
def fresh (allowed : Duration) : WriteDeadline := { timeout := allowed }

/-- What a call is answered, and the clock behind it. -/
def poll (w : WriteDeadline) (c : Call) : Stream.Poll c.operation.Value × WriteDeadline :=
  if c.operation.stalls then w.write c.time c.inner else w.read c.inner

/-- A call with its answer. -/
structure Exchange where
  call : Call
  answer : Stream.Poll call.operation.Value

/-- The clock behind some calls. -/
def after (w : WriteDeadline) (calls : List Call) : WriteDeadline :=
  calls.foldl (fun w c => (w.poll c).2) w

/-- Some calls with their answers. -/
def transcript : WriteDeadline → List Call → List Exchange
  | _, [] => []
  | w, c :: calls => ⟨c, (w.poll c).1⟩ :: transcript (w.poll c).2 calls

/-- A call with its answer, behind earlier calls of a stream of which nothing had been
asked. -/
def answered (allowed : Duration) (earlier : List Call) (c : Call) : Exchange :=
  ⟨c, (((fresh allowed).after earlier).poll c).1⟩

theorem transcript_append (w : WriteDeadline) (earlier later : List Call) :
    w.transcript (earlier ++ later)
      = w.transcript earlier ++ (w.after earlier).transcript later := by
  induction earlier generalizing w with
  | nil => rfl
  | cons c earlier ih => exact congrArg (_ :: ·) (ih (w.poll c).2)

theorem after_append (w : WriteDeadline) (earlier later : List Call) :
    w.after (earlier ++ later) = (w.after earlier).after later := by
  simp [after]

theorem after_concat (w : WriteDeadline) (earlier : List Call) (c : Call) :
    w.after (earlier ++ [c]) = ((w.after earlier).poll c).2 := by
  simp [after]

/-- A last call adds its exchange to the transcript. -/
theorem transcript_concat (allowed : Duration) (earlier : List Call) (c : Call) :
    (fresh allowed).transcript (earlier ++ [c])
      = (fresh allowed).transcript earlier ++ [answered allowed earlier c] :=
  transcript_append _ earlier [c]

/-- Every exchange is a call behind those before it. -/
theorem exists_of_mem_transcript {w : WriteDeadline} {calls : List Call} {e : Exchange}
    (h : e ∈ w.transcript calls) :
    ∃ earlier c later, calls = earlier ++ c :: later
      ∧ e = ⟨c, ((w.after earlier).poll c).1⟩ := by
  induction calls generalizing w with
  | nil => cases h
  | cons c calls ih =>
      rcases List.mem_cons.mp h with rfl | hrest
      · exact ⟨[], c, calls, rfl, rfl⟩
      · obtain ⟨earlier, d, later, rfl, rfl⟩ := ih hrest
        exact ⟨c :: earlier, d, later, rfl, rfl⟩

/-- Every exchange answers a call that was made. -/
theorem call_mem_of_mem_transcript {w : WriteDeadline} {calls : List Call} {e : Exchange}
    (h : e ∈ w.transcript calls) : e.call ∈ calls := by
  obtain ⟨earlier, c, later, rfl, rfl⟩ := exists_of_mem_transcript h
  simp

-- ============================================================== stalls

/-- Whether the stream within could not go on, and the caller was told to wait. -/
def Exchange.waits (e : Exchange) : Bool :=
  match e.call.inner, e.answer with
  | .pending, .pending => true
  | _, _ => false

/-- Whether the stream within could not go on, and the caller was told that this has lasted
too long. -/
def Exchange.CutOff (allowed : Duration) (e : Exchange) : Prop :=
  e.call.inner = .pending ∧ e.answer = .failed (fresh allowed).stalled

/-- The stall that the next call would fall into: reads left out, the calls at the end that
waited. -/
def underWay (es : List Exchange) : List Exchange :=
  (es.filter (·.call.operation.stalls)).rtakeWhile Exchange.waits

/-- When the stall began that a call falls into: with the call itself, if none is under
way. -/
def began (es : List Exchange) (c : Call) : Nat :=
  match (underWay es).head? with
  | some first => first.call.time
  | none => c.time

/-- An exchange waits when the stream is pending and its caller is told so. -/
theorem waits_iff {e : Exchange} :
    e.waits = true ↔ e.call.inner = .pending ∧ e.answer = .pending := by
  obtain ⟨c, answer⟩ := e
  unfold Exchange.waits
  cases c.inner <;> cases answer <;> simp

theorem waits_eq_false {e : Exchange} (h : e.call.inner ≠ .pending) : e.waits = false := by
  rw [Bool.eq_false_iff, Ne, waits_iff]
  exact fun hwaits => h hwaits.1

theorem waits_eq_false_of_answer {e : Exchange} (h : e.answer ≠ .pending) : e.waits = false := by
  rw [Bool.eq_false_iff, Ne, waits_iff]
  exact fun hwaits => h hwaits.2

section

variable {es : List Exchange} {e : Exchange}

/-- A read leaves the stall that is under way. -/
theorem underWay_concat_of_read (h : e.call.operation.stalls = false) :
    underWay (es ++ [e]) = underWay es := by
  simp [underWay, h]

/-- A call that waits joins the stall. -/
theorem underWay_concat_of_waits (h : e.call.operation.stalls = true) (hwaits : e.waits = true) :
    underWay (es ++ [e]) = underWay es ++ [e] := by
  simp [underWay, h, hwaits]

/-- A call that does not wait ends the stall. -/
theorem underWay_concat_of_not_waits (h : e.call.operation.stalls = true)
    (hwaits : e.waits = false) : underWay (es ++ [e]) = [] := by
  simp [underWay, h, hwaits]

end

/-- No stall reaches back behind a call that did not wait. -/
theorem mem_of_mem_underWay {before later : List Exchange} {e x : Exchange}
    (hstalls : e.call.operation.stalls = true) (hwaits : e.waits = false)
    (hx : x ∈ underWay (before ++ e :: later)) : x ∈ later := by
  induction later using List.reverseRecOn with
  | nil =>
      rw [underWay_concat_of_not_waits hstalls hwaits] at hx
      cases hx
  | append_singleton later last ih =>
      rw [← List.cons_append, ← List.append_assoc] at hx
      by_cases hlast : last.call.operation.stalls = true
      · by_cases hwait : last.waits = true
        · rw [underWay_concat_of_waits hlast hwait] at hx
          rcases List.mem_append.mp hx with hx | hx
          · exact List.mem_append_left _ (ih hx)
          · exact List.mem_append_right _ hx
        · rw [underWay_concat_of_not_waits hlast (by simpa using hwait)] at hx
          cases hx
      · rw [underWay_concat_of_read (by simpa using hlast)] at hx
        exact List.mem_append_left _ (ih hx)

-- =============================================================== polls

variable {w : WriteDeadline} {c : Call}

/-- A read passes through and leaves the timer. -/
theorem poll_of_read (h : c.operation.stalls = false) : w.poll c = (c.inner, w) := by
  rw [poll, h]
  rfl

/-- A ready stream passes through and clears the timer. -/
theorem poll_of_ready (h : c.operation.stalls = true) (hinner : c.inner ≠ .pending) :
    w.poll c = (c.inner, { w with due := none }) := by
  rw [poll, if_pos h]
  cases hanswer : c.inner with
  | pending => exact absurd hanswer hinner
  | ready value => rfl
  | failed failure => rfl

/-- A pending stream is cut off when the timer is due, and waits on otherwise. -/
theorem poll_of_pending (h : c.operation.stalls = true) (hinner : c.inner = .pending) :
    w.poll c
      = if w.due.getD (c.time + w.timeout.nanoseconds) ≤ c.time then
          (.failed w.stalled, { w with due := none })
        else
          (.pending, { w with due := some (w.due.getD (c.time + w.timeout.nanoseconds)) }) := by
  rw [poll, if_pos h, hinner]
  rfl

theorem timeout_poll (w : WriteDeadline) (c : Call) : (w.poll c).2.timeout = w.timeout := by
  by_cases hstalls : c.operation.stalls = true
  · by_cases hinner : c.inner = .pending
    · rw [poll_of_pending hstalls hinner]
      split <;> rfl
    · rw [poll_of_ready hstalls hinner]
  · rw [poll_of_read (by simpa using hstalls)]

/-- The timeout is never changed. -/
theorem timeout_after (w : WriteDeadline) (calls : List Call) :
    (w.after calls).timeout = w.timeout := by
  induction calls generalizing w with
  | nil => rfl
  | cons c calls ih => exact (ih (w.poll c).2).trans (timeout_poll w c)

-- =============================================================== clock

variable {allowed : Duration}

theorem head?_map_concat {α β : Type} (l : List α) (a : α) (f : α → β) :
    (l ++ [a]).head?.map f = some ((l.head?.map f).getD (f a)) := by
  cases l <;> rfl

/-- The clock is due when the first call of the stall under way is as long ago as is
allowed. -/
theorem due_after (allowed : Duration) (calls : List Call) :
    ((fresh allowed).after calls).due
      = (underWay ((fresh allowed).transcript calls)).head?.map
          (·.call.time + allowed.nanoseconds) := by
  induction calls using List.reverseRecOn with
  | nil => rfl
  | append_singleton calls c ih =>
      rw [after_concat, transcript_concat]
      by_cases hstalls : c.operation.stalls = true
      · by_cases hinner : c.inner = .pending
        · have hpoll := @poll_of_pending ((fresh allowed).after calls) c hstalls hinner
          rw [timeout_after] at hpoll
          split at hpoll
          · -- cut off, and the clock is stopped
            have hanswer : (answered allowed calls c).answer = .failed _ :=
              congrArg Prod.fst hpoll
            rw [hpoll, underWay_concat_of_not_waits hstalls
              (waits_eq_false_of_answer (by rw [hanswer]; exact nofun))]
            rfl
          · have hanswer : (answered allowed calls c).answer = .pending :=
              congrArg Prod.fst hpoll
            rw [hpoll, underWay_concat_of_waits hstalls (waits_iff.mpr ⟨hinner, hanswer⟩),
              head?_map_concat, ih]
            rfl
        · rw [poll_of_ready hstalls hinner,
            underWay_concat_of_not_waits hstalls (waits_eq_false hinner)]
          rfl
      · -- a read has no part in it
        have hread : c.operation.stalls = false := by simpa using hstalls
        rw [poll_of_read hread, underWay_concat_of_read hread]
        exact ih

/-- A call that the stream within cannot answer is cut off if the stall that it falls into
began as long ago as is allowed, and is told to wait if not. -/
theorem answer_of_pending (allowed : Duration) (earlier : List Call) {c : Call}
    (hstalls : c.operation.stalls = true) (hinner : c.inner = .pending) :
    (answered allowed earlier c).answer
      = if began ((fresh allowed).transcript earlier) c + allowed.nanoseconds ≤ c.time then
          .failed (fresh allowed).stalled
        else .pending := by
  have hbegan : ((fresh allowed).after earlier).due.getD (c.time + allowed.nanoseconds)
      = began ((fresh allowed).transcript earlier) c + allowed.nanoseconds := by
    rw [due_after, began]
    cases (underWay ((fresh allowed).transcript earlier)).head? <;> rfl
  have hstalled : ((fresh allowed).after earlier).stalled = (fresh allowed).stalled := by
    rw [stalled, timeout_after]
    rfl
  have htimeout : ((fresh allowed).after earlier).timeout = allowed := timeout_after _ _
  show (((fresh allowed).after earlier).poll c).1 = _
  rw [poll_of_pending hstalls hinner, htimeout, hbegan, hstalled]
  split <;> rfl

/-- A read is answered by the stream. -/
theorem answer_of_read (allowed : Duration) (earlier : List Call) {c : Call}
    (h : c.operation.stalls = false) : (answered allowed earlier c).answer = c.inner := by
  show (((fresh allowed).after earlier).poll c).1 = c.inner
  rw [poll_of_read h]

/-- A call that finds the stream ready is answered by the stream. -/
theorem answer_of_ne_pending (allowed : Duration) (earlier : List Call) {c : Call}
    (hinner : c.inner ≠ .pending) : (answered allowed earlier c).answer = c.inner := by
  by_cases hstalls : c.operation.stalls = true
  · show (((fresh allowed).after earlier).poll c).1 = c.inner
    rw [poll_of_ready hstalls hinner]
  · exact answer_of_read allowed earlier (by simpa using hstalls)

/-- A pending call is cut off exactly when the full timeout has passed since its stall
began. -/
theorem cutOff_iff (allowed : Duration) (earlier : List Call) {c : Call}
    (hstalls : c.operation.stalls = true) (hinner : c.inner = .pending) :
    (answered allowed earlier c).CutOff allowed
      ↔ began ((fresh allowed).transcript earlier) c + allowed.nanoseconds ≤ c.time := by
  rw [Exchange.CutOff, answer_of_pending allowed earlier hstalls hinner]
  constructor
  · rintro ⟨-, hanswer⟩
    by_contra hearly
    rw [if_neg hearly] at hanswer
    cases hanswer
  · intro hoverdue
    exact ⟨hinner, if_pos hoverdue⟩

/-- What is cut off falls into a stall that began as long ago as is allowed. -/
theorem overdue_of_cutOff {earlier : List Call} {c : Call}
    (h : (answered allowed earlier c).CutOff allowed) :
    c.operation.stalls = true
      ∧ began ((fresh allowed).transcript earlier) c + allowed.nanoseconds ≤ c.time := by
  have hinner : c.inner = .pending := h.1
  by_cases hstalls : c.operation.stalls = true
  · exact ⟨hstalls, (cutOff_iff allowed earlier hstalls hinner).mp h⟩
  · have hanswer := h.2
    rw [answer_of_read allowed earlier (by simpa using hstalls), hinner] at hanswer
    cases hanswer

/-- A stall began with a call that waited, or begins with this one. -/
theorem began_cases (es : List Exchange) (c : Call) :
    (∃ first ∈ underWay es, began es c = first.call.time) ∨ began es c = c.time := by
  unfold began
  cases hhead : (underWay es).head? with
  | none => exact .inr rfl
  | some first => exact .inl ⟨first, List.mem_of_mem_head? hhead, rfl⟩

/-- A stall is made of calls that wait. -/
theorem waits_of_mem_underWay {es : List Exchange} {e : Exchange} (h : e ∈ underWay es) :
    e ∈ es ∧ e.call.operation.stalls = true ∧ e.waits = true := by
  have hfilter := (List.rtakeWhile_suffix _ _).subset h
  obtain ⟨hmem, hstalls⟩ := List.mem_filter.mp hfilter
  exact ⟨hmem, hstalls, List.mem_rtakeWhile_imp h⟩

-- =============================================================== reads

/-- Without the reads, the other calls are answered as they are with them. -/
theorem transcript_filter (w : WriteDeadline) (calls : List Call) :
    w.transcript (calls.filter (·.operation.stalls))
      = (w.transcript calls).filter (·.call.operation.stalls) := by
  induction calls generalizing w with
  | nil => rfl
  | cons c calls ih =>
      rw [transcript, List.filter_cons, List.filter_cons]
      by_cases hstalls : c.operation.stalls = true
      · rw [if_pos hstalls, if_pos hstalls, transcript, ih]
      · rw [if_neg hstalls, if_neg hstalls, poll_of_read (by simpa using hstalls)]
        exact ih w

-- ============================================================= patience

/-- In every stretch of time of some length, between the first call and the last, the stream
within goes on or fails. -/
def Lively (length : Nat) (calls : List Call) : Prop :=
  ∀ start, (∃ c ∈ calls, c.time < start) → (∃ c ∈ calls, start + length ≤ c.time) →
    ∃ c ∈ calls, c.operation.stalls = true ∧ c.inner ≠ .pending
      ∧ start ≤ c.time ∧ c.time < start + length

/-- No stall reaches back behind a call that went on. -/
theorem mem_of_mem_underWay_transcript {a b : List Call} {r : Call} {x : Exchange}
    (hstalls : r.operation.stalls = true) (hwaits : (answered allowed a r).waits = false)
    (hx : x ∈ underWay ((fresh allowed).transcript (a ++ r :: b))) : x.call ∈ b := by
  rw [transcript_append] at hx
  exact call_mem_of_mem_transcript
    (@mem_of_mem_underWay _ _ (answered allowed a r) x hstalls hwaits hx)

/-- A stream that goes on in every stretch of some length below the timeout is not cut off. -/
theorem not_cutOff_of_lively {length : Nat} {earlier later : List Call} {c : Call}
    (hordered : (earlier ++ c :: later).Pairwise (·.time ≤ ·.time))
    (hlively : Lively length (earlier ++ c :: later)) (hlength : length < allowed.nanoseconds) :
    ¬ (answered allowed earlier c).CutOff allowed := by
  intro hcut
  obtain ⟨hstalls, hoverdue⟩ := overdue_of_cutOff hcut
  rcases began_cases ((fresh allowed).transcript earlier) c with
    ⟨first, hfirst, hbegan⟩ | hbegan
  · rw [hbegan] at hoverdue
    have hmem := call_mem_of_mem_transcript (waits_of_mem_underWay hfirst).1
    -- between the start of the stall and this call, some call has gone on
    obtain ⟨r, hr, hrstalls, hrinner, hrlower, hrupper⟩ := hlively (first.call.time + 1)
      ⟨first.call, List.mem_append_left _ hmem, by omega⟩ ⟨c, by simp, by omega⟩
    obtain ⟨hearlier, hrest, hacross⟩ := List.pairwise_append.mp hordered
    have hrearlier : r ∈ earlier := by
      rcases List.mem_append.mp hr with hr | hr
      · exact hr
      · -- what is not earlier is not before this call in time
        rcases List.mem_cons.mp hr with rfl | hr
        · omega
        · have := (List.pairwise_cons.mp hrest).1 r hr
          omega
    obtain ⟨a, b, rfl⟩ := List.append_of_mem hrearlier
    -- so the stall began behind that call, and not before it
    have hbehind := mem_of_mem_underWay_transcript hrstalls (waits_eq_false hrinner) hfirst
    have := (List.pairwise_cons.mp (List.pairwise_append.mp hearlier).2.1).1 _ hbehind
    omega
  · omega

/-- A call is answered by the stream or cut off. -/
theorem answer_eq_inner_or_cutOff (allowed : Duration) (earlier : List Call) (c : Call) :
    (answered allowed earlier c).answer = c.inner
      ∨ (answered allowed earlier c).CutOff allowed := by
  by_cases hinner : c.inner = .pending
  · by_cases hstalls : c.operation.stalls = true
    · have hanswer := answer_of_pending allowed earlier hstalls hinner
      split at hanswer
      · exact .inr ⟨hinner, hanswer⟩
      · exact .inl (hanswer.trans hinner.symm)
    · exact .inl (answer_of_read allowed earlier (by simpa using hstalls))
  · exact .inl (answer_of_ne_pending allowed earlier hinner)

/-- When a call is cut off, over every series of calls and every script of the stream within.

A call that the stream within answers has that answer. One that it cannot answer, reads
aside, is cut off if the stall that it falls into began as long ago as is allowed, and is
told to wait if not. A read has the answer of the stream within and leaves the clock as it
is, so the others are answered as they would be without the reads. Hence a stream that goes
on or fails at least once in every stretch of time of some length that is shorter than what
is allowed is never cut off; and between two calls that are cut off there is one that waits,
or the second itself, from which on the second had all of the time allowed. -/
theorem calls_are_cut_off_when_overdue (allowed : Duration) :
    (∀ earlier c, c.inner ≠ .pending → (answered allowed earlier c).answer = c.inner)
    ∧ (∀ earlier c, c.operation.stalls = true → c.inner = .pending →
        ((answered allowed earlier c).answer
            = .failed ⟨.timedOut, "peer stopped reading for " ++ allowed.text⟩
          ↔ began ((fresh allowed).transcript earlier) c + allowed.nanoseconds ≤ c.time)
        ∧ ((answered allowed earlier c).answer = .pending
          ↔ c.time < began ((fresh allowed).transcript earlier) c + allowed.nanoseconds))
    ∧ (∀ earlier c, c.operation.stalls = false →
        ((fresh allowed).after earlier).poll c = (c.inner, (fresh allowed).after earlier))
    ∧ (∀ calls, (fresh allowed).transcript (calls.filter (·.operation.stalls))
        = ((fresh allowed).transcript calls).filter (·.call.operation.stalls))
    ∧ (∀ length calls, length < allowed.nanoseconds → calls.Pairwise (·.time ≤ ·.time) →
        Lively length calls →
        ∀ e ∈ (fresh allowed).transcript calls, e.answer = e.call.inner)
    ∧ ∀ earlier x between c, (answered allowed earlier x).CutOff allowed →
        (answered allowed (earlier ++ x :: between) c).CutOff allowed →
        ∃ y ∈ between ++ [c], y.operation.stalls = true ∧ y.inner = .pending
          ∧ y.time + allowed.nanoseconds ≤ c.time := by
  refine ⟨fun earlier c => answer_of_ne_pending allowed earlier, ?_,
    fun earlier c => poll_of_read, transcript_filter _, ?_, ?_⟩
  · intro earlier c hstalls hinner
    rw [answer_of_pending allowed earlier hstalls hinner]
    split
    · case isTrue hoverdue =>
        exact ⟨⟨fun _ => hoverdue, fun _ => rfl⟩, nofun, fun hearly => by omega⟩
    · case isFalse hearly =>
        exact ⟨⟨nofun, fun hoverdue => absurd hoverdue hearly⟩, fun _ => by omega, fun _ => rfl⟩
  · intro length calls hlength hordered hlively e he
    obtain ⟨earlier, c, later, rfl, rfl⟩ := exists_of_mem_transcript he
    exact (answer_eq_inner_or_cutOff allowed earlier c).resolve_right
      (not_cutOff_of_lively hordered hlively hlength)
  · intro earlier x between c hx hc
    obtain ⟨hstalls, hoverdue⟩ := overdue_of_cutOff hc
    rcases began_cases ((fresh allowed).transcript (earlier ++ x :: between)) c with
      ⟨first, hfirst, hbegan⟩ | hbegan
    · rw [hbegan] at hoverdue
      obtain ⟨-, hfirstStalls, hfirstWaits⟩ := waits_of_mem_underWay hfirst
      -- the first cut has ended the stall before it, so this one began later
      have hbehind := mem_of_mem_underWay_transcript (overdue_of_cutOff hx).1
        (waits_eq_false_of_answer (by rw [hx.2]; exact nofun)) hfirst
      exact ⟨first.call, List.mem_append_left _ hbehind, hfirstStalls,
        (waits_iff.mp hfirstWaits).1, hoverdue⟩
    · rw [hbegan] at hoverdue
      exact ⟨c, by simp, hstalls, hc.1, hoverdue⟩

/-- A peer that goes on after 30 milliseconds and after 60. -/
def halting : List Call :=
  [⟨.write, 0, .pending⟩, ⟨.flush, 30000000, .ready ()⟩, ⟨.writeVectored, 40000000, .pending⟩,
    ⟨.write, 60000000, .ready 4⟩]

/-- A peer that does not go on at all, and is asked after 50 milliseconds, 60 and 110. -/
def silent : List Call :=
  [⟨.write, 0, .pending⟩, ⟨.write, 50000000, .pending⟩, ⟨.flush, 60000000, .pending⟩]

/-- With 50 milliseconds allowed, the one is never cut off, and the other twice, the second
time 50 milliseconds behind the first call that follows. -/
theorem halting_goes_on_and_silent_is_cut_off :
    (halting.Pairwise (·.time ≤ ·.time) ∧ Lively 40000000 halting
      ∧ ∀ e ∈ (fresh (.ofMillis 50)).transcript halting, e.answer = e.call.inner)
    ∧ (answered (.ofMillis 50) (silent.take 1) ⟨.write, 50000000, .pending⟩).CutOff
        (.ofMillis 50)
    ∧ (answered (.ofMillis 50) silent ⟨.write, 110000000, .pending⟩).CutOff (.ofMillis 50)
    ∧ ∃ y ∈ silent.drop 2 ++ [⟨.write, 110000000, .pending⟩],
        y.operation.stalls = true ∧ y.inner = .pending ∧ y.time + 50000000 ≤ 110000000 := by
  obtain ⟨-, -, -, -, hlively, hagain⟩ := calls_are_cut_off_when_overdue (.ofMillis 50)
  have hordered : halting.Pairwise (·.time ≤ ·.time) := by simp [halting]
  have hhalting : Lively 40000000 halting := by
    intro start hstart hend
    simp only [halting, List.mem_cons, List.not_mem_nil, or_false, exists_eq_or_imp,
      exists_eq_left] at hstart hend
    refine ⟨⟨.flush, 30000000, .ready ()⟩, by simp [halting], rfl, nofun, ?_, ?_⟩
    · show start ≤ 30000000
      omega
    · show 30000000 < start + 40000000
      omega
  have hfirst : (answered (.ofMillis 50) (silent.take 1)
      ⟨.write, 50000000, .pending⟩).CutOff (.ofMillis 50) := ⟨rfl, rfl⟩
  have hsecond : (answered (.ofMillis 50) silent ⟨.write, 110000000, .pending⟩).CutOff
      (.ofMillis 50) := ⟨rfl, rfl⟩
  exact ⟨⟨hordered, hhalting, hlively 40000000 halting (by decide) hordered hhalting⟩,
    hfirst, hsecond, hagain _ _ (silent.drop 2) _ hfirst hsecond⟩

end Vitals.WriteDeadline
