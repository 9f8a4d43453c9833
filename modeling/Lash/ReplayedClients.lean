import Mathlib.Data.List.Infix

/-!
# Clients that are restarted from the beginning

A client sends one request after the other; what it sends next depends on the replies it was
given. When it is cut it starts again, and the world it talks to stays as it is. If the world
answers a repeated request as it did the first time, each run of the client is the beginning
of a run that was never cut and that leaves the same durable part of the world. Requests that
are `quiet` leave no trace there: a run may be cut behind them and go on with other replies.
-/

namespace ReplayedClients

open List

universe u v w x y

structure Client (S : Type u) (Q : Type v) (A : Type w) where
  start : S
  request : S → Option Q
  resume : S → A → S

structure World (Q : Type v) (A : Type w) (W : Type x) (D : Type y) where
  serve : Q → W → A → W → Prop
  others : W → W → Prop
  durable : W → D
  quiet : Q → Bool

variable {S : Type u} {Q : Type v} {A : Type w} {W : Type x} {D : Type y}

/-! ## Runs of a client -/

namespace Client

variable (client : Client S Q A)

variable (replies : List A)

def after : S := replies.foldl client.resume client.start

/-- The request that stands behind these replies. -/
def asked : Option Q := client.request (client.after replies)

/-- The requests that were answered with these replies, from here. -/
def issuedFrom (s : S) : List A → List Q
  | [] => []
  | a :: replies => (client.request s).toList ++ issuedFrom (client.resume s a) replies

def issued : List Q := client.issuedFrom client.start replies

/-- The requests with their replies. -/
def exchangedFrom (s : S) : List A → List (Q × A)
  | [] => []
  | a :: replies =>
    (client.request s).toList.map (·, a) ++ exchangedFrom (client.resume s a) replies

def exchanged : List (Q × A) := client.exchangedFrom client.start replies

@[simp] theorem after_append (first second : List A) :
    client.after (first ++ second) = second.foldl client.resume (client.after first) :=
  List.foldl_append

theorem after_concat (a : A) :
    client.after (replies ++ [a]) = client.resume (client.after replies) a := by
  rw [after_append, foldl_cons, foldl_nil]

theorem issuedFrom_append (s : S) (first second : List A) : client.issuedFrom s (first ++ second) =
      client.issuedFrom s first ++ client.issuedFrom (first.foldl client.resume s) second := by
  induction first generalizing s with
  | nil => rfl
  | cons a first ih =>
    simp only [cons_append, issuedFrom, foldl_cons, ih, append_assoc]

theorem issued_append (first second : List A) : client.issued (first ++ second) =
      client.issued first ++ client.issuedFrom (client.after first) second :=
  client.issuedFrom_append client.start first second

theorem issued_concat (a : A) :
    client.issued (replies ++ [a]) = client.issued replies ++ (client.asked replies).toList := by
  rw [issued_append]
  simp only [issuedFrom, append_nil]
  rfl

theorem exchangedFrom_append (s : S) (first second : List A) :
    client.exchangedFrom s (first ++ second) = client.exchangedFrom s first ++
        client.exchangedFrom (first.foldl client.resume s) second := by
  induction first generalizing s with
  | nil => rfl
  | cons a first ih =>
    simp only [cons_append, exchangedFrom, foldl_cons, ih, append_assoc]

theorem exchanged_concat (a : A) : client.exchanged (replies ++ [a]) =
      client.exchanged replies ++ (client.asked replies).toList.map (·, a) := by
  rw [exchanged, exchangedFrom_append]
  simp only [exchangedFrom, append_nil]
  rfl

theorem mem_exchanged {first second : List A} {q : Q} {a : A}
    (asked : client.asked first = some q) :
    (q, a) ∈ client.exchanged (first ++ a :: second) := by
  rw [exchanged, exchangedFrom_append]
  refine mem_append_right _ (mem_append_left _ ?_)
  have hasked : client.request (first.foldl client.resume client.start) = some q := asked
  simp [hasked]

end Client

section

variable (client : Client S Q A) (world : World Q A W D) (start : W)

/-- Runs that are never cut. -/
inductive Uncut : List A → W → Prop
  | start : Uncut [] start
  | serve {replies : List A} {w w' : W} {q : Q} {a : A} (earlier : Uncut replies w)
      (asked : client.asked replies = some q) (served : world.serve q w a w') :
      Uncut (replies ++ [a]) w'
  | others {replies : List A} {w w' : W} (earlier : Uncut replies w)
      (moved : world.others w w') : Uncut replies w'

/-- Runs that may be cut anywhere: the replies that each run was given before it was cut, the
latest run first, the replies the current one was given, and the world. -/
inductive CutRun : List (List A) → List A → W → Prop
  | start : CutRun [] [] start
  | serve {past : List (List A)} {replies : List A} {w w' : W} {q : Q} {a : A}
      (earlier : CutRun past replies w) (asked : client.asked replies = some q)
      (served : world.serve q w a w') : CutRun past (replies ++ [a]) w'
  | others {past : List (List A)} {replies : List A} {w w' : W}
      (earlier : CutRun past replies w) (moved : world.others w w') : CutRun past replies w'
  | cut {past : List (List A)} {replies : List A} {w : W} (earlier : CutRun past replies w) :
      CutRun (replies :: past) [] w

/-- The requests of a run that leave a trace. -/
def loud (replies : List A) : List Q := (client.issued replies).filter fun q => !world.quiet q

end

variable {client : Client S Q A} {world : World Q A W D} {start : W}

theorem loud_append (first second : List A) :
    loud client world (first ++ second) = loud client world first ++
      (client.issuedFrom (client.after first) second).filter fun q => !world.quiet q := by
  rw [loud, client.issued_append, filter_append]
  rfl

variable {first second : List A}

theorem loud_mono (h : first <+: second) :
    loud client world first <+: loud client world second := by
  obtain ⟨rest, rfl⟩ := h
  rw [loud_append]
  exact prefix_append _ _

theorem loud_append_quiet
    (h : ∀ q ∈ client.issuedFrom (client.after first) second, world.quiet q = true) :
    loud client world (first ++ second) = loud client world first := by
  rw [loud_append, filter_eq_nil_iff.mpr fun q hq => by simp [h q hq], append_nil]

/-- An uncut run was served each of its replies. -/
theorem Uncut.served {a : A} {w : W} (run : Uncut client world start (first ++ a :: second) w) :
    ∃ q before after, client.asked first = some q ∧ Uncut client world start first before ∧
      world.serve q before a after := by
  generalize hreplies : first ++ a :: second = replies at run
  induction run generalizing second with
  | start => simp at hreplies
  | @serve replies w w' q b earlier asked served ih =>
    rcases eq_nil_or_concat second with rfl | ⟨rest, c, rfl⟩
    · obtain ⟨rfl, rfl⟩ := append_inj' hreplies rfl |>.imp id fun h => by simpa using h
      exact ⟨q, w, w', asked, earlier, served⟩
    · rw [concat_eq_append, ← cons_append, ← append_assoc] at hreplies
      exact ih (append_inj' hreplies rfl).1
  | others earlier moved ih => exact ih hreplies

/-- What a reply establishes and what every step keeps holds of all replies of an uncut run. -/
theorem Uncut.exchanged {P : W → Q → A → Prop}
    (established : ∀ replies w w' q a, Uncut client world start replies w →
      client.asked replies = some q → world.serve q w a w' → P w' q a)
    (served : ∀ replies w w' q a p b, Uncut client world start replies w →
      client.asked replies = some q → world.serve q w a w' → P w p b → P w' p b)
    (others : ∀ replies w w' p b, Uncut client world start replies w → world.others w w' →
      P w p b → P w' p b)
    {replies : List A} {w : W} (run : Uncut client world start replies w) :
    ∀ q a, (q, a) ∈ client.exchanged replies → P w q a := by
  induction run with
  | start => simp [Client.exchanged, Client.exchangedFrom]
  | @serve replies w w' q a earlier asked step ih =>
    intro p b hmem
    rw [client.exchanged_concat, asked] at hmem
    rcases mem_append.mp hmem with hold | hnew
    · exact served _ _ _ _ _ _ _ earlier asked step (ih p b hold)
    · simp only [Option.toList_some, map_cons, map_nil, mem_singleton, Prod.mk.injEq] at hnew
      obtain ⟨rfl, rfl⟩ := hnew
      exact established _ _ _ _ _ earlier asked step
  | others earlier moved ih =>
    intro p b hmem
    exact others _ _ _ _ _ earlier moved (ih p b hmem)

/-- What it takes for a client to be replayed: the world can be followed by another one that is
durably the same, and it answers again what it answered, unless only quiet requests follow.
`Fits` is what the part of the world that is not durable keeps. -/
structure Replayable (client : Client S Q A) (world : World Q A W D) (start : W)
    (Fits : List A → W → Prop) : Prop where
  quiet_serve {q : Q} {w w' : W} {a : A} (quiet : world.quiet q = true)
    (served : world.serve q w a w') : world.durable w' = world.durable w
  others_follow {u w w' : W} (same : world.durable u = world.durable w)
    (moved : world.others w w') :
    ∃ u', world.others u u' ∧ world.durable u' = world.durable w'
  serve_follow {replies : List A} {u w w' : W} {q : Q} {a : A}
    (run : Uncut client world start replies u) (same : world.durable u = world.durable w)
    (asked : client.asked replies = some q) (served : world.serve q w a w') :
    ∃ u', world.serve q u a u' ∧ world.durable u' = world.durable w'
  again {first second : List A} {u w w' : W} {q : Q} {a b : A}
    (run : Uncut client world start (first ++ a :: second) u)
    (same : world.durable u = world.durable w) (fits : Fits first w)
    (asked : client.asked first = some q) (served : world.serve q w b w') :
    (b = a ∧ world.durable w' = world.durable w) ∨
      ∀ p ∈ client.issuedFrom (client.after first) (a :: second), world.quiet p = true
  fits_start : Fits [] start
  fits_cut {replies : List A} {w : W} (fits : Fits replies w) : Fits [] w
  fits_others {replies : List A} {w w' : W} (fits : Fits replies w)
    (moved : world.others w w') : Fits replies w'
  fits_serve {replies rest : List A} {u w w' : W} {q : Q} {a : A} (fits : Fits replies w)
    (asked : client.asked replies = some q) (served : world.serve q w a w')
    (run : Uncut client world start (replies ++ a :: rest) u)
    (same : world.durable u = world.durable w') : Fits (replies ++ [a]) w'

section

variable {Fits : List A → W → Prop} {w : W}

/-- Quiet requests at the end of an uncut run can be left out. -/
theorem Uncut.drop_quiet (replayable : Replayable client world start Fits) {first second : List A}
    (run : Uncut client world start (first ++ second) w)
    (quiet : ∀ q ∈ client.issuedFrom (client.after first) second, world.quiet q = true) :
    ∃ u, Uncut client world start first u ∧ world.durable u = world.durable w := by
  generalize hreplies : first ++ second = replies at run
  induction run generalizing second with
  | start =>
    obtain ⟨rfl, rfl⟩ := append_eq_nil_iff.mp hreplies
    exact ⟨start, .start, rfl⟩
  | @serve replies w w' q a earlier asked served ih =>
    rcases eq_nil_or_concat second with rfl | ⟨rest, b, rfl⟩
    · rw [append_nil] at hreplies
      subst hreplies
      exact ⟨w', earlier.serve asked served, rfl⟩
    · rw [concat_eq_append] at hreplies quiet
      rw [← append_assoc] at hreplies
      obtain ⟨rfl, hlast⟩ := append_inj' hreplies rfl
      rw [client.issuedFrom_append] at quiet
      obtain ⟨u, hrun, hsame⟩ := ih (fun p hp => quiet p (mem_append_left _ hp)) rfl
      have hquiet : world.quiet q = true := by
        refine quiet q (mem_append_right _ ?_)
        rw [Client.asked, client.after_append] at asked
        simp [Client.issuedFrom, asked]
      exact ⟨u, hrun, hsame.trans (replayable.quiet_serve hquiet served).symm⟩
  | others earlier moved ih =>
    obtain ⟨u, hrun, hsame⟩ := ih quiet hreplies
    obtain ⟨u', hmoved, hsame'⟩ := replayable.others_follow hsame moved
    exact ⟨u', hrun.others hmoved, hsame'⟩

/-- The uncut run that a run with cuts is the beginning of. -/
structure Follows (client : Client S Q A) (world : World Q A W D) (start : W)
    (past : List (List A)) (replies : List A) (w : W) (uncut : List A) (u : W) : Prop where
  run : Uncut client world start uncut u
  same : world.durable u = world.durable w
  begins : replies <+: uncut
  repeats : ∀ earlier ∈ past, loud client world earlier <+: loud client world uncut

variable {past : List (List A)} {replies : List A}

/-- Each run between two cuts is the beginning of an uncut run that leaves the same durable world,
and the runs before it made the same requests but for quiet ones at their end. -/
theorem CutRun.follows (replayable : Replayable client world start Fits)
    (run : CutRun client world start past replies w) :
    Fits replies w ∧ ∃ uncut u, Follows client world start past replies w uncut u := by
  induction run with
  | start =>
    refine ⟨replayable.fits_start, [], start, .start, rfl, prefix_rfl, ?_⟩
    simp
  | @serve past replies w w' q a earlier asked served ih =>
    obtain ⟨fits, uncut, u, hrun, hsame, ⟨rest, rfl⟩, hrepeats⟩ := ih
    -- Behind the uncut run the reply is new.
    have hnew (u₁ : W) (hrun₁ : Uncut client world start replies u₁)
        (hsame₁ : world.durable u₁ = world.durable w)
        (hrepeats₁ : ∀ old ∈ past, loud client world old <+: loud client world replies) :
        Fits (replies ++ [a]) w' ∧ ∃ uncut u, Follows client world start past (replies ++ [a]) w'
          uncut u := by
      obtain ⟨u', hserved, hsame'⟩ := replayable.serve_follow hrun₁ hsame₁ asked served
      have hrun' := hrun₁.serve asked hserved
      refine ⟨replayable.fits_serve fits asked served hrun' hsame', _, u', hrun',
        hsame', prefix_rfl, fun old hold => ?_⟩
      exact (hrepeats₁ old hold).trans (loud_mono (prefix_append _ _))
    cases rest with
    | nil =>
      rw [append_nil] at hrun hrepeats
      exact hnew u hrun hsame hrepeats
    | cons b rest =>
      rcases replayable.again hrun hsame fits asked served with ⟨rfl, hkept⟩ | hquiet
      · have hsame' := hsame.trans hkept.symm
        refine ⟨replayable.fits_serve fits asked served hrun hsame', _, u, hrun, hsame', ?_,
          hrepeats⟩
        exact ⟨rest, by simp⟩
      · obtain ⟨u₁, hrun₁, hsame₁⟩ := hrun.drop_quiet replayable hquiet
        refine hnew u₁ hrun₁ (hsame₁.trans hsame) fun old hold => ?_
        rw [← loud_append_quiet hquiet]
        exact hrepeats old hold
  | others earlier moved ih =>
    obtain ⟨fits, uncut, u, hrun, hsame, hbegins, hrepeats⟩ := ih
    obtain ⟨u', hmoved, hsame'⟩ := replayable.others_follow hsame moved
    exact ⟨replayable.fits_others fits moved, uncut, u', hrun.others hmoved, hsame', hbegins,
      hrepeats⟩
  | @cut past replies w earlier ih =>
    obtain ⟨fits, uncut, u, hrun, hsame, hbegins, hrepeats⟩ := ih
    refine ⟨replayable.fits_cut fits, uncut, u, hrun, hsame, nil_prefix, ?_⟩
    intro old hold
    rcases mem_cons.mp hold with rfl | hold
    · exact loud_mono hbegins
    · exact hrepeats old hold

/-- A run that asks for nothing any more is all of the uncut run. -/
theorem Follows.complete {uncut : List A} {u : W}
    (follows : Follows client world start past replies w uncut u)
    (ended : client.asked replies = none) : uncut = replies := by
  obtain ⟨rest, rfl⟩ := follows.begins
  cases rest with
  | nil => rw [append_nil]
  | cons a rest =>
    obtain ⟨_, _, _, hasked, _⟩ := follows.run.served
    rw [ended] at hasked
    cases hasked

end

end ReplayedClients
