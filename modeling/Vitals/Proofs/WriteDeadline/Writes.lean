/-
What becomes of a write that the peer does not take.

A write that has to wait is behind a clock that runs, and writing again finds it cut off
once the clock is due. Nothing but a call that goes on stops the clock in between, and if
no write goes on, that can only be a flush or a shutdown. These do stop it, though they
hand the peer nothing: the clock is one for all calls that the peer can stall, and it is
not asked which of them went on.

# What can be said

As long as no flush and no shutdown is answered, the write that waited stays in the stall
under way, so the stall began no later than that write (`began_le`), and the bound holds of
the write as it is meant to. Once one is answered, the stall is all over, and what is under
way is what has been called since the last such answer (`began_behind_answer`). The write
then has the whole time again from the first of these calls, and as often as this happens.
-/
import Vitals.Proofs.WriteDeadline.Stalls

namespace Vitals.WriteDeadline

variable {allowed : Duration}

/-- Whether it hands bytes to the peer. -/
def Operation.carries : Operation → Bool
  | write | writeVectored => true
  | _ => false

/-- Whether it hands the peer nothing, and can be stalled all the same. -/
def Operation.settles : Operation → Bool
  | flush | shutdown => true
  | _ => false

theorem stalls_iff {o : Operation} :
    o.stalls = true ↔ o.carries = true ∨ o.settles = true := by
  cases o <;> decide

-- ============================================================= waiting

/-- What is asked and waits is under way with what was under way before it. -/
theorem underWay_append {es later : List Exchange}
    (h : ∀ e ∈ later, e.call.operation.stalls = true → e.waits = true) :
    underWay (es ++ later) = underWay es ++ later.filter (·.call.operation.stalls) := by
  induction later using List.reverseRecOn with
  | nil => simp
  | append_singleton later last ih =>
      have hlater := ih fun e he => h e (List.mem_append_left _ he)
      rw [← List.append_assoc]
      by_cases hstalls : last.call.operation.stalls = true
      · rw [underWay_concat_of_waits hstalls (h last (by simp) hstalls), hlater]
        simp [hstalls]
      · rw [underWay_concat_of_read (by simpa using hstalls), hlater]
        simp [hstalls]

/-- Behind earlier calls, what the stream within could not answer waits if it is not cut
off. -/
theorem waits_of_mem_transcript {earlier later : List Call}
    (hpending : ∀ d ∈ later, d.operation.stalls = true → d.inner = .pending)
    (hcut : ∀ a d b, later = a ++ d :: b → ¬ (answered allowed (earlier ++ a) d).CutOff allowed) :
    ∀ e ∈ ((fresh allowed).after earlier).transcript later,
      e.call.operation.stalls = true → e.waits = true := by
  intro e he hstalls
  obtain ⟨a, d, b, rfl, rfl⟩ := exists_of_mem_transcript he
  have hinner : d.inner = .pending := hpending d (by simp) hstalls
  have hanswer := (answer_eq_inner_or_cutOff allowed (earlier ++ a) d).resolve_right
    (hcut a d b rfl)
  rw [← after_append]
  exact waits_iff.mpr ⟨hinner, hanswer.trans hinner⟩

theorem map_call_transcript (w : WriteDeadline) (calls : List Call) :
    (w.transcript calls).map (·.call) = calls := by
  induction calls generalizing w with
  | nil => rfl
  | cons c calls ih => exact congrArg (c :: ·) (ih (w.poll c).2)

-- =============================================================== stalls

variable {before between rest : List Call} {w f c : Call}

/-- A write that waits is in the stall under way as long as all calls behind it wait. -/
theorem began_le (hstalls : w.operation.stalls = true)
    (hwaits : (answered allowed before w).waits = true)
    (hordered : ∀ d ∈ before, d.time ≤ w.time)
    (hpending : ∀ d ∈ between, d.operation.stalls = true → d.inner = .pending)
    (hcut : ∀ a d b, between = a ++ d :: b →
      ¬ (answered allowed (before ++ [w] ++ a) d).CutOff allowed) :
    began ((fresh allowed).transcript (before ++ [w] ++ between)) c ≤ w.time := by
  have hunderWay : underWay ((fresh allowed).transcript (before ++ [w] ++ between))
      = underWay ((fresh allowed).transcript before) ++ [answered allowed before w]
        ++ (((fresh allowed).after (before ++ [w])).transcript between).filter
            (·.call.operation.stalls) := by
    rw [transcript_append, underWay_append (waits_of_mem_transcript hpending hcut),
      transcript_concat, underWay_concat_of_waits hstalls hwaits]
  rw [began, hunderWay]
  -- the stall began with the write, or with a call before it
  cases hhead : underWay ((fresh allowed).transcript before) with
  | nil => exact le_rfl
  | cons first others =>
      have hfirst : first ∈ underWay ((fresh allowed).transcript before) := by simp [hhead]
      exact hordered _ (call_mem_of_mem_transcript (waits_of_mem_underWay hfirst).1)

/-- When calls that can be stalled are taken up, with this one at the latest. -/
def takenUp (calls : List Call) (c : Call) : Nat :=
  match calls.find? (·.operation.stalls) with
  | some first => first.time
  | none => c.time

/-- Behind a call that went on, the stall is what has been called since. -/
theorem began_behind_answer (hstalls : f.operation.stalls = true) (hinner : f.inner ≠ .pending)
    (hpending : ∀ d ∈ rest, d.operation.stalls = true → d.inner = .pending)
    (hcut : ∀ a d b, rest = a ++ d :: b →
      ¬ (answered allowed (before ++ [f] ++ a) d).CutOff allowed) :
    began ((fresh allowed).transcript (before ++ [f] ++ rest)) c = takenUp rest c := by
  have hunderWay : underWay ((fresh allowed).transcript (before ++ [f] ++ rest))
      = (((fresh allowed).after (before ++ [f])).transcript rest).filter
          (·.call.operation.stalls) := by
    rw [transcript_append, underWay_append (waits_of_mem_transcript hpending hcut),
      transcript_concat, underWay_concat_of_not_waits hstalls (waits_eq_false hinner)]
    rfl
  have hfirst : rest.find? (·.operation.stalls)
      = ((((fresh allowed).after (before ++ [f])).transcript rest).find?
          (·.call.operation.stalls)).map (·.call) := by
    conv_lhs => rw [← map_call_transcript ((fresh allowed).after (before ++ [f])) rest]
    exact List.find?_map
  rw [began, hunderWay, List.head?_filter, takenUp, hfirst]
  cases List.find? _ _ <;> rfl

-- ============================================================== writes

/-- What becomes of a write that waits, while no write goes on and nothing is cut off.

Let a write, plain or vectored, have been told to wait, and let neither a write behind it go
on nor a call be cut off. As long as no flush and no shutdown is answered either, a write
that the stream within cannot take is cut off once the first one is as long ago as is
allowed, whatever is read, flushed or shut down in between. Behind a flush or a shutdown
that is answered, it is cut off precisely if the first call since then that can be stalled
is as long ago as that. -/
theorem waiting_write_is_cut_off_unless_answered (allowed : Duration) (before : List Call)
    (w : Call) (between : List Call) (c : Call) (hwrite : w.operation.carries = true)
    (hinner : w.inner = .pending) (hanswer : (answered allowed before w).answer = .pending)
    (hwrites : ∀ d ∈ between, d.operation.carries = true → d.inner = .pending)
    (hcut : ∀ a d b, between = a ++ d :: b →
      ¬ (answered allowed (before ++ [w] ++ a) d).CutOff allowed)
    (hordered : (before ++ [w] ++ between ++ [c]).Pairwise (·.time ≤ ·.time))
    (hagain : c.operation.carries = true) (hstill : c.inner = .pending) :
    ((∀ d ∈ between, d.operation.settles = true → d.inner = .pending) →
      w.time + allowed.nanoseconds ≤ c.time →
      (answered allowed (before ++ [w] ++ between) c).CutOff allowed)
    ∧ ∀ first f rest, between = first ++ [f] ++ rest → f.operation.settles = true →
      f.inner ≠ .pending → (∀ d ∈ rest, d.operation.settles = true → d.inner = .pending) →
      ((answered allowed (before ++ [w] ++ between) c).CutOff allowed
        ↔ takenUp rest c + allowed.nanoseconds ≤ c.time) := by
  have hoverdue := cutOff_iff allowed (before ++ [w] ++ between)
    (stalls_iff.mpr (.inl hagain)) hstill
  have hbefore : ∀ d ∈ before, d.time ≤ w.time := by
    intro d hd
    have hupto := (List.pairwise_append.mp (List.pairwise_append.mp hordered).1).1
    exact (List.pairwise_append.mp hupto).2.2 d hd w (by simp)
  -- with the writes, the flushes and the shutdowns, all that can be stalled waits
  have hall : ∀ {ds : List Call}, ds ⊆ between →
      (∀ d ∈ ds, d.operation.settles = true → d.inner = .pending) →
      ∀ d ∈ ds, d.operation.stalls = true → d.inner = .pending := by
    intro ds hsub hsettles d hd hstalls
    rcases stalls_iff.mp hstalls with hcarries | hsettle
    · exact hwrites d (hsub hd) hcarries
    · exact hsettles d hd hsettle
  constructor
  · intro hpending hlong
    have hbegan := @began_le allowed before between w c (stalls_iff.mpr (.inl hwrite))
      (waits_iff.mpr ⟨hinner, hanswer⟩) hbefore (hall (List.Subset.refl _) hpending) hcut
    rw [hoverdue]
    omega
  · intro first f rest hsplit hsettles hready hpending
    subst hsplit
    have hbegan := @began_behind_answer allowed (before ++ [w] ++ first) rest f c
      (stalls_iff.mpr (.inr hsettles)) hready
      (hall (List.subset_append_right _ _) hpending)
      (fun a d b hrest => by
        have hbehind := hcut (first ++ [f] ++ a) d b (by simp [hrest])
        simpa only [List.append_assoc] using hbehind)
    simp only [List.append_assoc] at hbegan hoverdue ⊢
    rw [hoverdue, hbegan]

/-- A write that waits from the start. -/
def stuck : Call := ⟨.write, 0, .pending⟩

/-- Something to read, and a flush that waits. -/
def unflushed : List Call := [⟨.read, 10000000, .ready 3⟩, ⟨.flush, 30000000, .pending⟩]

/-- A flush that is answered. -/
def flushed : List Call := [⟨.flush, 40000000, .ready ()⟩]

/-- The write, once more, at some time. -/
def once (time : Nat) : Call := ⟨.writeVectored, time, .pending⟩

theorem not_cutOff_of_pair {x y : Call} (hx : ¬ (answered allowed before x).CutOff allowed)
    (hy : ¬ (answered allowed (before ++ [x]) y).CutOff allowed) (a : List Call) (d : Call)
    (b : List Call) (h : [x, y] = a ++ d :: b) :
    ¬ (answered allowed (before ++ a) d).CutOff allowed := by
  rcases a with _ | ⟨z, _ | ⟨z', a⟩⟩
  · cases h
    rwa [List.append_nil]
  · cases h
    exact hy
  · simp at h

/-- With 50 milliseconds allowed, the write is cut off after 50 milliseconds if no flush is
answered, and after 90 if one is answered after 40 and the write called again at once. -/
theorem stuck_is_cut_off_later_if_flushed :
    (answered (.ofMillis 50) [] stuck).answer = .pending
    ∧ (answered (.ofMillis 50) ([] ++ [stuck] ++ unflushed) (once 50000000)).CutOff
        (.ofMillis 50)
    ∧ (answered (.ofMillis 50) ([] ++ [stuck] ++ (flushed ++ [once 40000000]))
        (once 90000000)).CutOff (.ofMillis 50) := by
  have hunflushed := waiting_write_is_cut_off_unless_answered (.ofMillis 50) [] stuck unflushed
    (once 50000000) rfl rfl rfl (by simp [unflushed, Operation.carries])
    (not_cutOff_of_pair (fun hcut => nomatch hcut.1) fun hcut => nomatch hcut.2)
    (by simp [stuck, unflushed, once]) rfl rfl
  have hflushed := waiting_write_is_cut_off_unless_answered (.ofMillis 50) [] stuck
    (flushed ++ [once 40000000]) (once 90000000) rfl rfl rfl
    (by simp [flushed, once, Operation.carries])
    (not_cutOff_of_pair (fun hcut => nomatch hcut.1) fun hcut => nomatch hcut.2)
    (by simp [stuck, flushed, once]) rfl rfl
  refine ⟨rfl, hunflushed.1 (by simp [unflushed, Operation.settles]) (by decide), ?_⟩
  exact (hflushed.2 [] _ [once 40000000] rfl rfl nofun (by simp [once, Operation.settles])).mpr
    (by decide)

/-- A write that is called again once it has waited as long as is allowed is not cut off, if
a flush has been answered in between: no write went on, and nothing was cut off. -/
theorem flushed_write_is_not_cut_off :
    (answered (.ofMillis 50) [] stuck).answer = .pending
    ∧ (∀ d ∈ flushed, d.operation.carries = false)
    ∧ (∀ e ∈ ((fresh (.ofMillis 50)).after [stuck]).transcript flushed, ¬ e.CutOff (.ofMillis 50))
    ∧ stuck.time + 50000000 ≤ (once 50000000).time
    ∧ (once 50000000).inner = .pending
    ∧ (answered (.ofMillis 50) ([stuck] ++ flushed) (once 50000000)).answer = .pending := by
  refine ⟨rfl, by simp [flushed, Operation.carries], ?_, le_rfl, rfl, rfl⟩
  intro e he
  obtain rfl := List.mem_singleton.mp he
  exact fun hcut => nomatch hcut.1

end Vitals.WriteDeadline
