import TaskPlatform.SessionRotation
import TaskPlatform.CopyOrigins

/-! # Racing session calls

    Any number of calls in flight on one session table, every `await` a point
    where another call can move.

    * `refresh_single_use`: racing refreshes of one token return at most one pair
      as long as each `save` still finds the hash of that token in the row it
      overwrites (the code compares hashes before it signs, not when it saves);
    * `revocation_permanent_iff`: a revoked row stays revoked exactly in the runs
      where no session is revoked between the lookup of a refresh and its save. -/

namespace PlatformAuth

open AsyncProgram Interleaving PlatformEntities RowTable

variable {Token Hash : Type} [DecidableEq Hash] (lib : AuthLibrary Token Hash)

/-- A pool of calls on the state `s`. -/
def race (s : AuthState Hash) (calls : List (AuthCall Token)) :
    Pool (AuthOp Token Hash) AuthOp.Res HttpError (AuthReply Token)
      (AuthState Hash) :=
  ⟨s, calls.map (AuthCall.prog lib)⟩

/-! ## One token, many refreshes -/

/-- The save that ends a successful refresh. -/
def IsSave : AuthOp Token Hash → Prop
  | .save _ => True
  | _ => False

/-- A save finds the hash `h` in the row that it overwrites. -/
def StillCarries (h : Hash) (s : AuthState Hash) : AuthOp Token Hash → Prop
  | .save o => ∃ r ∈ s.sessions, r.id = o.id ∧ r.tokenHash = h
  | _ => True

instance (h : Hash) (s : AuthState Hash) (op : AuthOp Token Hash) :
    Decidable (StillCarries h s op) :=
  match op with
  | .save o => inferInstanceAs (Decidable (∃ r ∈ s.sessions, r.id = o.id ∧ r.tokenHash = h))
  | .findByEmailWithPassword _ | .bcryptCompare _ _ | .signAsync _ _ _ | .verifyAsync _ _
  | .findOne _ | .insert _ | .revokeAll _ | .auditLog _ _ _ => isTrue trivial

/-- A refresh does not return a pair without saving a session. -/
theorem refresh_mustIssue (t : Token) : MustIssue IsSave (refresh lib t) := by
  simp only [refresh, Prog.perform_bind]
  refine Or.inr ?_
  intro payload
  cases payload with
  | none => trivial
  | some payload =>
      refine Or.inr ?_
      intro session
      cases session with
      | none => trivial
      | some session =>
          by_cases hh : session.tokenHash ≠ hashToken lib t
          · simp only [if_pos hh]
            exact Or.inr fun _ => Or.inr fun _ => trivial
          · simp only [if_neg hh]
            exact Or.inr fun _ => Or.inr fun _ => Or.inl trivial

/-- The table while refreshes race from `s₀`: tokens are only added to the history,
    and a row that carries `h` is one that carried it at the start. -/
structure Racing (h : Hash) (s₀ s : AuthState Hash) : Prop where
  issued : ∃ l, s.issued = s₀.issued ++ l
  carried : ∀ r ∈ s.sessions, r.tokenHash = h →
    ∃ r₀ ∈ s₀.sessions, r₀.id = r.id ∧ r₀.tokenHash = h

/-- What a racing refresh sees to: it saves nothing but a row that carried `h` at
    the start, under the hash of a token signed in the race, and then returns. -/
def Duty (h : Hash) (s₀ s : AuthState Hash) :
    AuthProg Token Hash (AuthReply Token) → Prop
  | .await (.save o) k =>
      (∃ r₀ ∈ s₀.sessions, r₀.id = o.id ∧ r₀.tokenHash = h) ∧
        (∃ l, s.issued = s₀.issued ++ l ∧
          o.tokenHash ∈ l.map (fun i => hashToken lib (i.token lib))) ∧
        ∀ u, (k u).returned = true
  | .await (.insert _) _ => False
  | _ => True

/-- The bargain of the racing refreshes. -/
def racingRefreshes (h : Hash) (s₀ : AuthState Hash) :
    Discipline (exec lib) HttpError (AuthReply Token) where
  inv := Racing h s₀
  rely s s' := ∃ l, s'.issued = s.issued ++ l
  refl := issued_refl
  trans _ _ _ := issued_trans
  granted _ _ := True
  owes := Duty lib h s₀
  keep := by
    intro ω op k s hinv howes _
    obtain ⟨l, hl⟩ := hinv.issued
    have hsame := issued_refl s
    cases op with
    | insert n => exact nomatch howes
    | save o =>
        refine ⟨⟨⟨l, hl⟩, ?_⟩, hsame⟩
        intro r hr hh
        obtain ⟨⟨r₀, hr₀, hid, hh₀⟩, -, -⟩ := howes
        have hr' : r ∈ upsert UserSession.id o s.sessions := hr
        by_cases hro : r.id = o.id
        · exact ⟨r₀, hr₀, hid.trans hro.symm, hh₀⟩
        · exact hinv.carried r (mem_of_mem_upsert_ne hr' hro) hh
    | revokeAll u =>
        refine ⟨⟨⟨l, hl⟩, ?_⟩, hsame⟩
        intro r hr hh
        obtain ⟨r₁, hr₁, rfl⟩ := List.mem_map.mp hr
        rw [revokeRow_tokenHash] at hh
        rw [revokeRow_id]
        exact hinv.carried r₁ hr₁ hh
    | signAsync secret d p =>
        cases secret with
        | access => exact ⟨⟨⟨l, hl⟩, hinv.carried⟩, hsame⟩
        | refresh =>
            refine ⟨⟨⟨l ++ [⟨p, s.now + ω.elapsed⟩], ?_⟩, hinv.carried⟩, [_], rfl⟩
            show s.issued ++ [_] = _
            rw [hl, List.append_assoc]
            rfl
    | findByEmailWithPassword e => exact ⟨⟨⟨l, hl⟩, hinv.carried⟩, hsame⟩
    | bcryptCompare p q => exact ⟨⟨⟨l, hl⟩, hinv.carried⟩, hsame⟩
    | verifyAsync secret t => exact ⟨⟨⟨l, hl⟩, hinv.carried⟩, hsame⟩
    | findOne w => exact ⟨⟨⟨l, hl⟩, hinv.carried⟩, hsame⟩
    | auditLog a u p => exact ⟨⟨⟨l, hl⟩, hinv.carried⟩, hsame⟩

/-- Every refresh of `t` keeps its side of the bargain. -/
theorem refresh_follows (t : Token) (s₀ s : AuthState Hash) :
    Follows (racingRefreshes lib (hashToken lib t) s₀) (refresh lib t) s := by
  simp only [refresh, Prog.perform_bind]
  intro s₁ _ _
  refine ⟨trivial, fun _ ω₁ => ?_⟩
  -- the token is verified
  cases (exec lib ω₁ (.verifyAsync .refresh t) s₁).2 with
  | none => exact fun _ _ _ => trivial
  | some payload =>
      intro s₂ hinv₂ _
      refine ⟨trivial, fun _ ω₂ => ?_⟩
      -- the session is looked up
      cases hp : (exec lib ω₂ (.findOne (liveSessionsOf payload.userId)) s₂).2 with
      | none => exact fun _ _ _ => trivial
      | some session =>
          have hmem := (mem_liveSessionsOf.mp (pick_mem hp)).1
          by_cases hh : session.tokenHash ≠ hashToken lib t
          · simp only [if_pos hh]
            exact fun _ _ _ => ⟨trivial, fun _ _ _ _ _ =>
              ⟨trivial, fun _ _ _ _ _ => trivial⟩⟩
          · simp only [if_neg hh]
            obtain ⟨r₀, hr₀, hid, hh₀⟩ :=
              hinv₂.carried session hmem (not_not.mp hh)
            intro s₃ _ _
            refine ⟨trivial, fun _ ω₃ => ?_⟩
            intro s₄ hinv₄ _
            refine ⟨trivial, fun _ ω₄ => ?_⟩
            -- the refresh token is signed at `s₄` and its session saved at `s₅`
            rintro s₅ - ⟨l₅, hl₅⟩
            refine ⟨⟨⟨r₀, hr₀, hid, hh₀⟩, ?_, fun _ => rfl⟩,
              fun _ _ _ _ _ => trivial⟩
            obtain ⟨l₄, hl₄⟩ := hinv₄.issued
            refine ⟨l₄ ++ [⟨payload, s₄.now + ω₄.elapsed⟩] ++ l₅, ?_, ?_⟩
            · have h₅ : s₅.issued
                  = s₄.issued ++ [⟨payload, s₄.now + ω₄.elapsed⟩] ++ l₅ := hl₅
              rw [h₅, hl₄]
              simp only [List.append_assoc]
            · rw [List.map_append, List.map_append]
              exact List.mem_append_left _
                (List.mem_append_right _ (List.mem_singleton_self _))

/-- An operation that a racing refresh carries out, other than a save, leaves every
    row its id and its hash. -/
theorem carries_iff_of_not_save {h : Hash} {s₀ s : AuthState Hash}
    {op : AuthOp Token Hash} {k : op.Res → AuthProg Token Hash (AuthReply Token)}
    (howes : Duty lib h s₀ s (.await op k)) (hsave : ¬ IsSave op) (ω : Choice)
    (x : String) :
    (∃ r ∈ (exec lib ω op s).1.sessions, r.id = x ∧ r.tokenHash = h) ↔
      ∃ r ∈ s.sessions, r.id = x ∧ r.tokenHash = h := by
  cases op with
  | save o => exact absurd trivial hsave
  | insert n => exact nomatch howes
  | revokeAll u =>
      constructor
      · rintro ⟨r, hr, hx, hh⟩
        obtain ⟨r₀, hr₀, rfl⟩ := List.mem_map.mp hr
        rw [revokeRow_id] at hx
        rw [revokeRow_tokenHash] at hh
        exact ⟨r₀, hr₀, hx, hh⟩
      · rintro ⟨r, hr, hx, hh⟩
        exact ⟨revokeRow u r, List.mem_map_of_mem hr, (revokeRow_id u r).trans hx,
          (revokeRow_tokenHash u r).trans hh⟩
  | signAsync secret d p => cases secret <;> exact Iff.rfl
  | findByEmailWithPassword e => exact Iff.rfl
  | bcryptCompare p q => exact Iff.rfl
  | verifyAsync secret t => exact Iff.rfl
  | findOne w => exact Iff.rfl
  | auditLog a u p => exact Iff.rfl

omit [DecidableEq Hash] in
/-- The rows that carry `h` during a race share an id, if one row did at the
    start. -/
theorem Racing.same_id {h : Hash} {s₀ s : AuthState Hash} (hrace : Racing h s₀ s)
    (hone : OneRow h s₀) {r r' : UserSession Hash} (hr : r ∈ s.sessions)
    (hr' : r' ∈ s.sessions) (hh : r.tokenHash = h) (hh' : r'.tokenHash = h) :
    r.id = r'.id := by
  obtain ⟨x, hx, hxid, hxh⟩ := hrace.carried r hr hh
  obtain ⟨y, hy, hyid, hyh⟩ := hrace.carried r' hr' hh'
  rw [← hxid, ← hyid, hone x hx y hy hxh hyh]

/-- A save that still finds `h` leaves no row with `h`: the hash that it writes was
    signed in the race, and `h` was signed before. -/
theorem gone_after_save {h : Hash} {s₀ s : AuthState Hash} (hsound : Sound lib s₀)
    (hone : OneRow h s₀) (hrace : Racing h s₀ s) (hsig : SignedOnce lib h s)
    {o : UserSession Hash} {k : Unit → AuthProg Token Hash (AuthReply Token)}
    (howes : Duty lib h s₀ s (.await (.save o) k))
    {r : UserSession Hash} (hr : r ∈ s.sessions) (hrid : r.id = o.id)
    (hrh : r.tokenHash = h) (ω : Choice) :
    ∀ x ∈ (exec lib ω (.save o : AuthOp Token Hash) s).1.sessions, x.tokenHash ≠ h := by
  obtain ⟨⟨r₀, hr₀, -, hh₀⟩, ⟨l, hl, hmem⟩, -⟩ := howes
  have hne : o.tokenHash ≠ h := by
    intro heq
    have h₁ : 1 ≤ (issuedHashes lib s₀).count h :=
      List.one_le_count_iff.mpr (hh₀ ▸ hsound.hash_issued lib hr₀)
    have h₂ : 1 ≤ (l.map (fun i => hashToken lib (i.token lib))).count h :=
      List.one_le_count_iff.mpr (heq ▸ hmem)
    have h₃ : (issuedHashes lib s).count h ≤ 1 := hsig
    rw [issuedHashes, hl, List.map_append, List.count_append] at h₃
    have h₄ : (issuedHashes lib s₀).count h
        = (s₀.issued.map (fun i => hashToken lib (i.token lib))).count h := rfl
    omega
  intro x hx hxh
  have hx' : x ∈ upsert UserSession.id o s.sessions := hx
  rw [upsert_of_mem hr hrid.symm, mem_replace] at hx'
  rcases hx' with ⟨rfl, -⟩ | ⟨hx', hxid⟩
  · exact hne hxh
  · exact hxid ((hrace.same_id hone hx' hr hxh hrh).trans hrid)

section Race

variable {lib} {t : Token} {s₀ : AuthState Hash} {n : Nat}

/-- The race of `n` refreshes of `t`. -/
abbrev refreshRace (lib : AuthLibrary Token Hash) (s₀ : AuthState Hash) (n : Nat)
    (t : Token) :
    Pool (AuthOp Token Hash) AuthOp.Res HttpError (AuthReply Token)
      (AuthState Hash) :=
  race lib s₀ (List.replicate n (.refresh t))

theorem refreshRace_calls {p : AuthProg Token Hash (AuthReply Token)}
    (hp : p ∈ (refreshRace lib s₀ n t).calls) : p = refresh lib t := by
  obtain ⟨call, hcall, rfl⟩ := List.mem_map.mp hp
  rw [List.eq_of_mem_replicate hcall]
  rfl

theorem refreshRace_orderly :
    Orderly (racingRefreshes lib (hashToken lib t) s₀) (refreshRace lib s₀ n t) := by
  refine ⟨⟨⟨[], (List.append_nil _).symm⟩, fun r hr hh => ⟨r, hr, rfl, hh⟩⟩, ?_⟩
  intro p hp
  rw [refreshRace_calls hp]
  exact refresh_follows lib t s₀ s₀

/-- Every schedule is within the bargain. -/
theorem granted_always {h : Hash}
    (c : Pool (AuthOp Token Hash) AuthOp.Res HttpError (AuthReply Token)
      (AuthState Hash)) (l : List (Nat × Choice)) :
    Meets (exec lib) (OnOp (racingRefreshes lib h s₀).granted) c l :=
  meets_of_forall (exec lib) (fun _ _ _ _ _ => trivial) c l

/-- Two winners need a save that comes too late. -/
theorem atMostOne_of_stillCarries (hsound : Sound lib s₀)
    (hone : OneRow (hashToken lib t) s₀) {l : List (Nat × Choice)}
    (hsig : SignedOnce lib (hashToken lib t)
      (run (exec lib) (refreshRace lib s₀ n t) l).shared)
    (hl : Meets (exec lib) (OnOp (StillCarries (hashToken lib t)))
      (refreshRace lib s₀ n t) l) :
    AtMostOneReturned (run (exec lib) (refreshRace lib s₀ n t) l) := by
  let h := hashToken lib t
  let D := racingRefreshes lib h s₀
  have hord : Orderly D (refreshRace lib s₀ n t) := refreshRace_orderly
  -- `h` is signed once at every point of the race, as it is at its end
  have hsigs : Meets (exec lib) (OnOp fun s _ => SignedOnce lib h s)
      (refreshRace lib s₀ n t) l := by
    rw [meets_iff_split]
    intro l₁ i ω l₂ heq op k _
    obtain ⟨hord₁, -⟩ := follows_run hord (granted_always _ l₁)
    obtain ⟨-, l', hl'⟩ := follows_run hord₁ (granted_always _ ((i, ω) :: l₂))
    rw [← run_append, ← heq] at hl'
    exact hsig.before lib hl'
  have hall := (hl.and (exec lib) (hord.meets (granted_always _ l))).and (exec lib) hsigs
  refine at_most_one_returns (P := IsSave)
    (K := fun s => ∀ r ∈ s.sessions, r.tokenHash ≠ h) ?_ ?_ ?_ hall
  · intro ω op s hsave hC
    cases op with
    | save o =>
        obtain ⟨⟨⟨r, hr, hrid, hrh⟩, hrace, k, howes⟩, hsig⟩ := hC
        exact ⟨fun hgone => hgone r hr hrh,
          gone_after_save lib hsound hone hrace hsig howes hr hrid hrh ω⟩
    | _ => exact nomatch hsave
  · intro ω op s hC hgone r hr hh
    obtain ⟨⟨hstill, -, k, howes⟩, -⟩ := hC
    by_cases hsave : IsSave op
    · cases op with
      | save o =>
          obtain ⟨r₀, hr₀, -, hh₀⟩ := hstill
          exact hgone r₀ hr₀ hh₀
      | _ => exact nomatch hsave
    · obtain ⟨r₀, hr₀, -, hh₀⟩ :=
        (carries_iff_of_not_save lib howes hsave ω r.id).mp ⟨r, hr, rfl, hh⟩
      exact hgone r₀ hr₀ hh₀
  · intro p hp
    rw [refreshRace_calls hp]
    exact refresh_mustIssue lib t

/-- A save that comes too late makes two winners: the call that took the hash away
    has returned, and the late one returns too. -/
theorem stillCarries_of_atMostOne {l : List (Nat × Choice)}
    (hmost : AtMostOneReturned (run (exec lib) (refreshRace lib s₀ n t) l)) :
    Meets (exec lib) (OnOp (StillCarries (hashToken lib t)))
      (refreshRace lib s₀ n t) l := by
  let h := hashToken lib t
  have hord : Orderly (racingRefreshes lib h s₀) (refreshRace lib s₀ n t) :=
    refreshRace_orderly
  rw [meets_iff_split]
  intro l₁ i ω l₂ heq op k hi
  by_cases hsave : IsSave op
  swap
  · cases op with
    | save o => exact absurd trivial hsave
    | _ => trivial
  cases op with
  | save o =>
      by_contra hlate
      obtain ⟨hord₁, -⟩ := follows_run hord (granted_always _ l₁)
      obtain ⟨⟨r₀, hr₀, hid₀, hh₀⟩, -, hdone⟩ :=
        (hord₁.follows _ (List.mem_of_getElem? hi)).owes hord₁.inv
      -- some step before took the hash out of the row
      obtain ⟨a, j, ω', b, hab, hbefore, hafter⟩ := exists_flip (exec lib)
        (K := fun s => ¬ ∃ r ∈ s.sessions, r.id = o.id ∧ r.tokenHash = h)
        (c := refreshRace lib s₀ n t) (l := l₁)
        (fun hK => hK ⟨r₀, hr₀, hid₀, hh₀⟩) hlate
      obtain ⟨hord₂, -⟩ := follows_run hord (granted_always _ a)
      rcases step_cases (exec lib) (run (exec lib) (refreshRace lib s₀ n t) a) j ω' with
        h0 | ⟨op', k', hj, h0⟩
      · rw [h0] at hafter
        exact hbefore hafter
      · have howes' := (hord₂.follows _ (List.mem_of_getElem? hj)).owes hord₂.inv
        by_cases hsave' : IsSave op'
        · cases op' with
          | save o' =>
              -- the call that took it has returned, and stays returned
              obtain ⟨-, -, hdone'⟩ := howes'
              have hj₁ : (run (exec lib) (refreshRace lib s₀ n t) l₁).calls[j]?
                  = some (k' ()) := by
                rw [hab, run_append, run_cons]
                exact run_calls_finished (exec lib) (step_calls_self (exec lib) hj ω')
                  (Prog.finished_of_returned (hdone' ())) b
              have hij : i ≠ j := by
                rintro rfl
                rw [hi] at hj₁
                have hw : (Prog.await (AuthOp.save o) k).returned = true := by
                  rw [Option.some.inj hj₁]
                  exact hdone' ()
                exact nomatch hw
              have hi₂ : (run (exec lib) (refreshRace lib s₀ n t) l).calls[i]?
                  = some (k ()) := by
                rw [heq, run_append, run_cons]
                exact run_calls_finished (exec lib) (step_calls_self (exec lib) hi ω)
                  (Prog.finished_of_returned (hdone ())) l₂
              have hj₂ : (run (exec lib) (refreshRace lib s₀ n t) l).calls[j]?
                  = some (k' ()) := by
                rw [heq, run_append, run_cons]
                refine run_calls_finished (exec lib) ?_
                  (Prog.finished_of_returned (hdone' ())) l₂
                rw [step_calls_ne (exec lib) _ ω hij.symm]
                exact hj₁
              exact hij (hmost i j _ _ hi₂ hj₂ (hdone ()) (hdone' ()))
          | _ => exact nomatch hsave'
        · rw [h0] at hafter
          apply hbefore
          intro hcar
          exact hafter ((carries_iff_of_not_save lib howes' hsave' ω' o.id).mpr hcar)
  | _ => exact nomatch hsave

end Race

/-- **Single use under concurrency.**  From every table that completed calls can
    reach, in every interleaving of any number of refreshes of `t` that does not
    sign `t` a second time: at most one of them returns a pair exactly when each
    save still finds the hash of `t` in the row that it overwrites. -/
theorem refresh_single_use_iff (users : List User) (now : Nat)
    (hist : List (AuthCall Token × (Nat → Choice))) (t : Token) (n : Nat)
    (l : List (Nat × Choice))
    (honce : SignedOnce lib (hashToken lib t) (run (exec lib)
      (refreshRace lib (play lib hist (.start users now)) n t) l).shared) :
    AtMostOneReturned (run (exec lib)
        (refreshRace lib (play lib hist (.start users now)) n t) l) ↔
      Meets (exec lib) (OnOp (StillCarries (hashToken lib t)))
        (refreshRace lib (play lib hist (.start users now)) n t) l := by
  constructor
  · exact stillCarries_of_atMostOne
  · intro hl
    have hsound : Sound lib (play lib hist (.start users now)) :=
      play_sound lib hist (Sound.start lib users now)
    have hord : Orderly (racingRefreshes lib (hashToken lib t) _)
      (refreshRace lib (play lib hist (.start users now)) n t) := refreshRace_orderly
    obtain ⟨-, l', hl'⟩ := follows_run hord (granted_always _ l)
    have hone : OneRow (hashToken lib t) (play lib hist (.start users now)) :=
      play_oneRow lib hist (Sound.start lib users now) (fun r hr => nomatch hr)
        (honce.before lib hl')
    exact atMostOne_of_stillCarries hsound hone honce hl

/-- Alice's token, presented twice: the second call looks its session up after the
    first one saved. -/
def inTurn : List (Nat × Choice) :=
  [(0, ⟨1, 0, ""⟩), (0, ⟨0, 0, ""⟩), (0, ⟨0, 0, ""⟩), (0, ⟨0, 0, ""⟩),
    (0, ⟨0, 0, ""⟩),
    (1, ⟨1, 0, ""⟩), (1, ⟨0, 0, ""⟩), (1, ⟨0, 0, ""⟩), (1, ⟨0, 0, ""⟩)]

/-- The two calls take every step side by side, the second one signing a second
    later. -/
def sideBySide : List (Nat × Choice) :=
  [(0, ⟨1, 0, ""⟩), (1, ⟨0, 0, ""⟩), (0, ⟨0, 0, ""⟩), (1, ⟨0, 0, ""⟩),
    (0, ⟨0, 0, ""⟩), (0, ⟨0, 0, ""⟩), (1, ⟨0, 0, ""⟩), (1, ⟨1, 0, ""⟩),
    (0, ⟨0, 0, ""⟩), (1, ⟨0, 0, ""⟩)]

theorem refresh_single_use_iff_alice :
    let c := refreshRace plain (play plain [aliceLogin 0 "1"] (.start [alice] 0)) 2
      (aliceToken 0)
    SignedOnce plain (aliceToken 0) (run (exec plain) c inTurn).shared ∧
      AtMostOneReturned (run (exec plain) c inTurn) := by
  intro c
  have honce : SignedOnce plain (aliceToken 0)
      (run (exec plain) c inTurn).shared := by decide
  exact ⟨honce, (refresh_single_use_iff plain [alice] 0 [aliceLogin 0 "1"]
    (aliceToken 0) 2 inTurn honce).mpr (by decide)⟩

/-- Both calls come back with a pair, and all four tokens of the history are
    different. -/
theorem refresh_wins_twice :
    let c := run (exec plain) (refreshRace plain
      (play plain [aliceLogin 0 "1"] (.start [alice] 0)) 2 (aliceToken 0)) sideBySide
    (issuedHashes plain c.shared).Nodup ∧ ¬ AtMostOneReturned c := by
  intro c
  refine ⟨by decide, ?_⟩
  intro h
  exact absurd (h 0 1 _ _ rfl rfl rfl rfl) (by decide)

/-! ## Revocation -/

/-- Whatever row was revoked before is there and revoked after. -/
def RevokedStays (s s' : AuthState Hash) : Prop :=
  ∀ x r, lookup UserSession.id x s.sessions = some r → r.isRevoked = true →
    ∃ r', lookup UserSession.id x s'.sessions = some r' ∧ r'.isRevoked = true

omit [DecidableEq Hash] in
theorem RevokedStays.refl (s : AuthState Hash) : RevokedStays s s :=
  fun _ r hr hrev => ⟨r, hr, hrev⟩

omit [DecidableEq Hash] in
theorem RevokedStays.trans {a b d : AuthState Hash} (h₁ : RevokedStays a b)
    (h₂ : RevokedStays b d) : RevokedStays a d := by
  intro x r hr hrev
  obtain ⟨r', hr', hrev'⟩ := h₁ x r hr hrev
  exact h₂ x r' hr' hrev'

/-- The session that a save writes back as live.  `refresh` is the only call with such a
    save: the others save what they revoke. -/
def writtenBack : AuthOp Token Hash → Option String
  | .save o => if o.isRevoked then none else some o.id
  | _ => none

/-- The operation revokes the session `x`. -/
def revokes (s : AuthState Hash) (x : String) : AuthOp Token Hash → Bool
  | .save o => o.id = x && o.isRevoked
  | .revokeAll userId => s.sessions.any fun r => r.id = x && r.userId = userId
  | _ => false

/-- Live sessions as copies: a lookup reads one, and the save of a refresh writes one
    back. -/
def liveSessions : Traffic (AuthOp Token Hash) AuthOp.Res Empty String where
  transfer
    | .findOne _ => .read
    | _ => .neither
  got
    | .findOne _, some r => if r.isRevoked then none else some r.id
    | _, _ => none
  gives := writtenBack

/-- No session is revoked between the lookup of a refresh and its save: none of the
    steps from the lookup to the save that writes the session back revokes it. -/
def NoRevocationBetween
    (c : Pool (AuthOp Token Hash) AuthOp.Res HttpError (AuthReply Token) (AuthState Hash))
    (l : List (Nat × Choice)) : Prop :=
  ∀ n < l.length, ∀ op ∈ issuedAt (exec lib) c l n, ∀ x ∈ writtenBack op,
    ¬ OccursBetween (exec lib) (fun s op' => revokes s x op' = true) c l
      (originAt (exec lib) liveSessions c l n) n

instance
    (c : Pool (AuthOp Token Hash) AuthOp.Res HttpError (AuthReply Token) (AuthState Hash))
    (l : List (Nat × Choice)) : Decidable (NoRevocationBetween lib c l) :=
  inferInstanceAs (Decidable (∀ n < l.length, ∀ op ∈ issuedAt (exec lib) c l n,
    ∀ x ∈ writtenBack op, ¬ OccursBetween (exec lib) (fun s op' => revokes s x op' = true)
      c l (originAt (exec lib) liveSessions c l n) n))

/-! ### What a step does to a row -/

/-- A save does not put a live object over a revoked row. -/
def NotStale (s : AuthState Hash) : AuthOp Token Hash → Prop
  | .save o => o.isRevoked = false →
      ∀ r, lookup UserSession.id o.id s.sessions = some r → r.isRevoked = false
  | _ => True

/-- No operation but a stale save makes a revoked row live. -/
theorem exec_revokedStays (ω : Choice) (op : AuthOp Token Hash) (s : AuthState Hash)
    (h : NotStale s op) : RevokedStays s (exec lib ω op s).1 := by
  cases op with
  | save o =>
      intro x r hr hrev
      show ∃ r', lookup UserSession.id x (upsert UserSession.id o s.sessions)
        = some r' ∧ _
      by_cases hx : x = o.id
      · subst hx
        refine ⟨o, lookup_upsert_self o s.sessions, ?_⟩
        -- a live object over a revoked row would be a stale save
        cases hlive : o.isRevoked with
        | true => rfl
        | false =>
            rw [h hlive r hr] at hrev
            exact nomatch hrev
      · exact ⟨r, (lookup_upsert_ne hx).trans hr, hrev⟩
  | revokeAll u =>
      intro x r hr hrev
      refine ⟨revokeRow u r, ?_, ?_⟩
      · show lookup UserSession.id x (s.sessions.map (revokeRow u)) = _
        rw [lookup_map (revokeRow_id u), hr]
        rfl
      · by_cases hu : r.userId = u
        · simp [revokeRow, hu]
        · rw [revokeRow_other hu]
          exact hrev
  | insert n =>
      intro x r hr hrev
      cases hid : lookup UserSession.id ω.newId s.sessions with
      | some r' =>
          refine ⟨r, ?_, hrev⟩
          simp only [exec, hid]
          exact hr
      | none =>
          refine ⟨r, ?_, hrev⟩
          simp only [exec, hid]
          exact lookup_append_some hr
  | signAsync secret d p => cases secret <;> exact RevokedStays.refl s
  | findByEmailWithPassword e => exact RevokedStays.refl s
  | bcryptCompare p q => exact RevokedStays.refl s
  | verifyAsync secret t => exact RevokedStays.refl s
  | findOne w => exact RevokedStays.refl s
  | auditLog a u p => exact RevokedStays.refl s

/-- The session `x` is stored and not revoked. -/
def LiveSession (x : String) (s : AuthState Hash) : Prop :=
  ∃ r, lookup UserSession.id x s.sessions = some r ∧ r.isRevoked = false

/-- No operation takes a live session away but one that revokes it. -/
theorem exec_liveSession {x : String} {op : AuthOp Token Hash} {s : AuthState Hash}
    (h : LiveSession x s) (hno : ¬ revokes s x op = true) (ω : Choice) :
    LiveSession x (exec lib ω op s).1 := by
  obtain ⟨r, hr, hlive⟩ := h
  rw [Bool.not_eq_true] at hno
  cases op with
  | save o =>
      show ∃ r', lookup UserSession.id x (upsert UserSession.id o s.sessions) = some r' ∧ _
      by_cases hx : x = o.id
      · subst hx
        refine ⟨o, lookup_upsert_self o s.sessions, ?_⟩
        have hkept : (decide (o.id = o.id) && o.isRevoked) = false := hno
        rw [decide_eq_true rfl, Bool.true_and] at hkept
        exact hkept
      · exact ⟨r, (lookup_upsert_ne hx).trans hr, hlive⟩
  | revokeAll u =>
      refine ⟨revokeRow u r, ?_, ?_⟩
      · show lookup UserSession.id x (s.sessions.map (revokeRow u)) = _
        rw [lookup_map (revokeRow_id u), hr]
        rfl
      · -- the row of another user
        obtain ⟨hmem, hid⟩ := lookup_mem hr
        have hother : r.userId ≠ u := by
          intro hu
          have hnone := List.any_eq_false.mp hno r hmem
          simp [hid, hu] at hnone
        rw [revokeRow_other hother]
        exact hlive
  | insert n =>
      cases hid : lookup UserSession.id ω.newId s.sessions with
      | some r' =>
          refine ⟨r, ?_, hlive⟩
          simp only [exec, hid]
          exact hr
      | none =>
          refine ⟨r, ?_, hlive⟩
          simp only [exec, hid]
          exact lookup_append_some hr
  | signAsync secret d p => cases secret <;> exact ⟨r, hr, hlive⟩
  | findByEmailWithPassword e => exact ⟨r, hr, hlive⟩
  | bcryptCompare p q => exact ⟨r, hr, hlive⟩
  | verifyAsync secret t => exact ⟨r, hr, hlive⟩
  | findOne w => exact ⟨r, hr, hlive⟩
  | auditLog a u p => exact ⟨r, hr, hlive⟩

/-- An operation that revokes a session leaves it revoked. -/
theorem exec_revokes {x : String} {op : AuthOp Token Hash} {s : AuthState Hash}
    (hids : Unique UserSession.id s.sessions) (h : revokes s x op = true) (ω : Choice) :
    ∃ r, lookup UserSession.id x (exec lib ω op s).1.sessions = some r ∧
      r.isRevoked = true := by
  cases op with
  | save o =>
      have hboth : (decide (o.id = x) && o.isRevoked) = true := h
      rw [Bool.and_eq_true, decide_eq_true_eq] at hboth
      obtain ⟨rfl, hrev⟩ := hboth
      exact ⟨o, lookup_upsert_self o s.sessions, hrev⟩
  | revokeAll u =>
      obtain ⟨r, hr, hboth⟩ := List.any_eq_true.mp h
      rw [Bool.and_eq_true, decide_eq_true_eq, decide_eq_true_eq] at hboth
      obtain ⟨hid, hu⟩ := hboth
      refine ⟨revokeRow u r, ?_, by simp [revokeRow, hu]⟩
      show lookup UserSession.id x (s.sessions.map (revokeRow u)) = _
      rw [lookup_map (revokeRow_id u), lookup_eq_some hids hr hid]
      rfl
  | _ => cases h

/-- The primary key of the sessions stays one. -/
theorem exec_sessionIds {s : AuthState Hash} (hids : Unique UserSession.id s.sessions)
    (ω : Choice) (op : AuthOp Token Hash) :
    Unique UserSession.id (exec lib ω op s).1.sessions := by
  cases op with
  | save o => exact hids.upsert o
  | revokeAll u =>
      show ((s.sessions.map (revokeRow u)).map UserSession.id).Nodup
      rw [List.map_map]
      have hsame : (UserSession.id : UserSession Hash → String) ∘ revokeRow u
          = UserSession.id := funext fun r => revokeRow_id u r
      rw [hsame]
      exact hids
  | insert n =>
      cases hid : lookup UserSession.id ω.newId s.sessions with
      | some r' =>
          simp only [exec, hid]
          exact hids
      | none =>
          simp only [exec, hid]
          exact hids.append hid
  | signAsync secret d p => cases secret <;> exact hids
  | findByEmailWithPassword e => exact hids
  | bcryptCompare p q => exact hids
  | verifyAsync secret t => exact hids
  | findOne w => exact hids
  | auditLog a u p => exact hids

theorem run_sessionIds
    {c : Pool (AuthOp Token Hash) AuthOp.Res HttpError (AuthReply Token) (AuthState Hash)}
    (hids : Unique UserSession.id c.shared.sessions) (l : List (Nat × Choice)) :
    Unique UserSession.id (run (exec lib) c l).shared.sessions :=
  run_relation (exec lib) (C := fun _ _ => True)
    (R := fun s s' => Unique UserSession.id s.sessions → Unique UserSession.id s'.sessions)
    (fun _ h => h) (fun _ _ _ h h' hs => h' (h hs))
    (fun ω op _ _ hs => exec_sessionIds lib hs ω op)
    (meets_of_forall (exec lib) (fun _ _ _ _ _ => trivial) c l) hids

/-! ### What the calls write back -/

/-- A call writes back nothing but the live session that it has looked up. -/
theorem call_passesOn (call : AuthCall Token) :
    PassesOn liveSessions none (call.prog lib) := by
  cases call with
  | login email password device ip =>
      refine .idle ⟨rfl, rfl⟩ ?_
      rintro (_ | user)
      · trivial
      · refine .idle ⟨rfl, rfl⟩ ?_
        rintro (_ | _)
        · trivial
        · refine .idle ⟨rfl, rfl⟩ fun access => .idle ⟨rfl, rfl⟩ fun refresh => ?_
          refine .idle ⟨rfl, rfl⟩ ?_
          rintro (e | session)
          · trivial
          · exact .idle ⟨rfl, rfl⟩ fun _ => trivial
  | refresh t =>
      refine .idle ⟨rfl, rfl⟩ ?_
      rintro (_ | payload)
      · trivial
      · refine ⟨fun y hy => (by cases hy), ?_⟩
        rintro (_ | session)
        · trivial
        · -- what was found is what is held from here on
          show PassesOn liveSessions (if session.isRevoked then none else some session.id)
            (if session.tokenHash ≠ hashToken lib t then _ else _)
          by_cases hh : session.tokenHash ≠ hashToken lib t
          · rw [if_pos hh]
            exact .idle ⟨rfl, rfl⟩ fun _ => .idle ⟨rfl, rfl⟩ fun _ => trivial
          · rw [if_neg hh]
            refine .idle ⟨rfl, rfl⟩ fun access => .idle ⟨rfl, rfl⟩ fun refresh => ?_
            exact ⟨fun y hy => hy, fun _ => trivial⟩
  | logout t u =>
      refine ⟨fun y hy => (by cases hy), ?_⟩
      rintro (_ | session)
      · exact .idle ⟨rfl, rfl⟩ fun _ => trivial
      · exact .idle ⟨rfl, rfl⟩ fun _ => .idle ⟨rfl, rfl⟩ fun _ => trivial
  | revokeSession sessionId u =>
      refine ⟨fun y hy => (by cases hy), ?_⟩
      rintro (_ | session)
      · trivial
      · exact .idle ⟨rfl, rfl⟩ fun _ => .idle ⟨rfl, rfl⟩ fun _ => trivial

/-- What a lookup comes back with as live is live in the table. -/
theorem liveSessions_faithful : Faithful (exec lib) liveSessions (fun _ key _ => key.elim)
    (fun s x => Unique UserSession.id s.sessions → LiveSession x s) where
  read := by
    intro ω op s x hop hx hids
    cases op with
    | findOne w =>
        cases hp : pick ω.pick (s.sessions.filter w.matches) with
        | none =>
            have hgot : liveSessions.got (.findOne w : AuthOp Token Hash) none = some x :=
              hp ▸ hx
            cases hgot
        | some r =>
            have hgot : (if r.isRevoked = true then none else some r.id) = some x := by
              have hx' : liveSessions.got (.findOne w : AuthOp Token Hash) (some r) = some x :=
                hp ▸ hx
              exact hx'
            have hmem : r ∈ s.sessions := (List.mem_filter.mp (pick_mem hp)).1
            cases hlive : r.isRevoked with
            | true =>
                rw [hlive, if_pos rfl] at hgot
                cases hgot
            | false =>
                rw [hlive, if_neg Bool.false_ne_true] at hgot
                exact ⟨r, lookup_eq_some hids hmem (Option.some.inj hgot), hlive⟩
    | _ => cases hop
  load _ _ _ key _ := key.elim
  store _ _ _ key _ := key.elim
  keep _ _ _ key _ := key.elim

/-- **When revocation is permanent.**  In every interleaving of any calls on any table: a
    revoked row stays revoked from every point of the run to every later one exactly when
    no session is revoked between the lookup of a refresh and its save. -/
theorem revocation_permanent_iff (s : AuthState Hash)
    (hids : Unique UserSession.id s.sessions) (calls : List (AuthCall Token))
    (l : List (Nat × Choice)) :
    (∀ l₁ l₂ l₃, l = l₁ ++ l₂ ++ l₃ →
        RevokedStays (run (exec lib) (race lib s calls) l₁).shared
          (run (exec lib) (race lib s calls) (l₁ ++ l₂)).shared) ↔
      NoRevocationBetween lib (race lib s calls) l := by
  have hunique : ∀ l', Unique UserSession.id
      (run (exec lib) (race lib s calls) l').shared.sessions :=
    fun l' => run_sessionIds lib hids l'
  constructor
  · rintro hperm n hn op hop x hx ⟨m, hmn, -, op', hop', hrevokes⟩
    -- from any step to any later one, what was revoked is revoked
    have hstays : ∀ a b, a ≤ b →
        RevokedStays (run (exec lib) (race lib s calls) (l.take a)).shared
          (run (exec lib) (race lib s calls) (l.take b)).shared := by
      intro a b hab
      have hcut : l.take b = l.take a ++ (l.take b).drop a := by
        have h := List.take_append_drop a (l.take b)
        rw [List.take_take, Nat.min_eq_left hab] at h
        exact h.symm
      rw [hcut]
      refine hperm _ _ (l.drop b) ?_
      rw [← hcut, List.take_append_drop]
    obtain ⟨ω', hafter'⟩ := shared_after hop'
    obtain ⟨r, hr, hrev⟩ := exec_revokes lib (hunique (l.take m)) hrevokes ω'
    rw [← hafter'] at hr
    obtain ⟨ω, hafter⟩ := shared_after hop
    obtain ⟨r', hr', hrev'⟩ := hstays (m + 1) (n + 1) (by omega) x r hr hrev
    rw [hafter] at hr'
    -- the refresh has written the session back as live
    cases op with
    | save o =>
        have hwritten : (if o.isRevoked = true then none else some o.id) = some x := hx
        cases hlive : o.isRevoked with
        | true =>
            rw [hlive, if_pos rfl] at hwritten
            cases hwritten
        | false =>
            rw [hlive, if_neg Bool.false_ne_true] at hwritten
            cases hwritten
            have hself : some o = some r' := (lookup_upsert_self o _).symm.trans hr'
            rw [← Option.some.inj hself, hlive] at hrev'
            cases hrev'
    | _ => cases hx
  · intro hbetween
    have hmeets : Meets (exec lib) (OnOp NotStale) (race lib s calls) l := by
      refine meets_iff_issued.mpr ?_
      intro n op hop
      cases op with
      | save o =>
          intro hlive r hr
          by_contra hrev
          have hx : writtenBack (.save o : AuthOp Token Hash) = some o.id := by
            rw [writtenBack, hlive]
            rfl
          -- live at the lookup, revoked at the save: a step in between revokes it
          obtain ⟨hon, hwas⟩ := gives_was (liveSessions_faithful lib) (fun p hp => by
              obtain ⟨call, -, rfl⟩ := List.mem_map.mp hp
              exact call_passesOn lib call)
            (fun key _ _ => key.elim) hop hx
          have hnow : ¬ LiveSession o.id
              (run (exec lib) (race lib s calls) (l.take n)).shared := by
            rintro ⟨r', hr', hlive'⟩
            rw [hr] at hr'
            cases hr'
            exact hrev hlive'
          have hnl : n < l.length := by
            obtain ⟨i, ω, k, he, -⟩ := issuedAt_eq_some.mp hop
            exact (List.getElem?_eq_some_iff.mp he).1
          exact hbetween n hnl _ hop o.id hx (changed_since (K := LiveSession o.id)
            (fun m op' _ hno hK ω => exec_liveSession lib hK hno ω) hon (Nat.le_of_lt hnl)
            (hwas (hunique _)) hnow)
      | _ => trivial
    intro l₁ l₂ l₃ heq
    rw [heq, List.append_assoc, meets_append, meets_append] at hmeets
    rw [run_append]
    exact run_relation (exec lib) RevokedStays.refl (fun _ _ _ => RevokedStays.trans)
      (exec_revokedStays lib) hmeets.2.1

/-- A refresh that is over before the session is logged out, and one that comes too
    late: what the logout has revoked stays revoked. -/
theorem revocation_permanent_inTurn :
    let c := race plain (play plain [aliceLogin 0 "1"] (.start [alice] 0))
      [.refresh (aliceToken 0), .logout (aliceToken 1) "a", .refresh (aliceToken 1)]
    let l := inTurn.take 5 ++ [(1, ⟨0, 0, ""⟩), (1, ⟨0, 0, ""⟩), (1, ⟨0, 0, ""⟩),
      (2, ⟨0, 0, ""⟩), (2, ⟨0, 0, ""⟩)]
    ∀ l₁ l₂ l₃, l = l₁ ++ l₂ ++ l₃ → RevokedStays (run (exec plain) c l₁).shared
      (run (exec plain) c (l₁ ++ l₂)).shared :=
  (revocation_permanent_iff plain (play plain [aliceLogin 0 "1"] (.start [alice] 0))
    (by decide) [.refresh (aliceToken 0), .logout (aliceToken 1) "a", .refresh (aliceToken 1)]
    _).mpr (by decide)

/-- A refresh finds its session and signs; the session is logged out; the refresh
    saves what it had read. -/
def overtaken : List (Nat × Choice) :=
  [(0, ⟨1, 0, ""⟩), (0, ⟨0, 0, ""⟩), (0, ⟨0, 0, ""⟩), (0, ⟨0, 0, ""⟩),
    (1, ⟨0, 0, ""⟩), (1, ⟨0, 0, ""⟩)]

/-- The save of an overtaken refresh brings a revoked session back. -/
theorem revocation_undone :
    let c := race plain (play plain [aliceLogin 0 "1"] (.start [alice] 0))
      [.refresh (aliceToken 0), .logout (aliceToken 0) "a"]
    ¬ RevokedStays (run (exec plain) c overtaken).shared
      (run (exec plain) c (overtaken ++ [(0, ⟨0, 0, ""⟩)])).shared := by
  intro c h
  have hrevoked : lookup UserSession.id "1" (run (exec plain) c overtaken).shared.sessions
      = some { aliceSession "1" 0 with isRevoked := true } := by decide
  obtain ⟨r', hr', hrev⟩ := h "1" _ hrevoked rfl
  have hr : lookup UserSession.id "1"
      (run (exec plain) c (overtaken ++ [(0, ⟨0, 0, ""⟩)])).shared.sessions
        = some (aliceSession "1" 1) := by decide
  rw [← Option.some.inj (hr.symm.trans hr')] at hrev
  exact nomatch hrev

end PlatformAuth
