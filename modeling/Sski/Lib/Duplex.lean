import Mathlib.Logic.Function.Basic
import Sski.Lib.Runs

/-!
Requests and replies over connections of two byte streams each.

A client writes a request to one stream and, if it waits for a reply, reads it from the other; the
server takes what it wants from the first and writes what it wants to the second. The streams know
no messages. Beside this stands the session: requests and replies as they are meant. The streams
are in step when they are the session's messages, one behind the other.
-/

namespace Sski.Lib.Duplex

open Sski.Lib.Runs

/-- A service. The first five fields say what is meant: the connection of a request, whether its
client waits for a reply, the bytes of both, and what the server does. The others are the code of
client and server; it stops, with `none`, where it waits for more bytes or does not survive, and so
does a client that does not survive its own request. -/
structure Service (σ ρ ω ι ε β : Type*) where
  connection : ρ → ι
  awaits : ρ → Bool
  request : ρ → List β
  reply : ρ → ω → List β
  answer : ε → σ → ρ → Option (σ × Option ω)
  send : ε → ρ → Option (List β)
  serve : ε → σ → List β → Option (σ × List β × List β)
  receive : ε → ρ → List β → Option (ω × List β)

/-- The server and its connections. -/
structure Net (σ ι κ : Type*) where
  server : σ
  conn : ι → κ

/-- A connection as it is: two streams, the request whose reply the client waits for, and the
replies it has read. -/
structure Link (ρ ω β : Type*) where
  toServer : List β
  toClient : List β
  awaited : Option ρ
  received : List (ρ × ω)

/-- A connection as it is meant: the requests to be served and the replies to be read. -/
structure Talk (ρ ω : Type*) where
  pending : List ρ
  replies : List (ρ × ω)
  awaited : Option ρ
  received : List (ρ × ω)

inductive Event (ρ ι ε : Type*) where
  | issue (e : ε) (r : ρ)
  | serve (e : ε) (i : ι)
  | receive (e : ε) (i : ι)

section Service

variable {σ ρ ω ι ε β : Type*} (S : Service σ ρ ω ι ε β)

def replyBytes (replies : List (ρ × ω)) : List β := replies.flatMap fun p => S.reply p.1 p.2

def link (t : Talk ρ ω) : Link ρ ω β :=
  ⟨t.pending.flatMap S.request, replyBytes S t.replies, t.awaited, t.received⟩

def links (n : Net σ ι (Talk ρ ω)) : Net σ ι (Link ρ ω β) := ⟨n.server, link S ∘ n.conn⟩

def opened (server : σ) : Net σ ι (Talk ρ ω) := ⟨server, fun _ => ⟨[], [], none, []⟩⟩

/-- The laws of the clients, and of the server as far as they are not about the bytes it takes. -/
structure Lawful : Prop where
  eq_request {e : ε} {r : ρ} {d : List β} : S.send e r = some d → d = S.request r
  receive_reply (e : ε) (r : ρ) (v : ω) : S.awaits r → S.receive e r (S.reply r v) = some (v, [])
  receive_nil (e : ε) (r : ρ) : S.receive e r [] = none
  serve_nil (e : ε) (s : σ) : S.serve e s [] = none
  isSome_of_answer {e : ε} {s s' : σ} {r : ρ} {v : Option ω} :
    S.answer e s r = some (s', v) → v.isSome = S.awaits r

/-- The server takes the bytes of the request and no others, and writes those of the reply. -/
def Exact (e : ε) (s : σ) (r : ρ) (rest : List β) : Prop :=
  S.serve e s (S.request r ++ rest) =
    (S.answer e s r).map fun (s', v) => (s', rest, replyBytes S (v.map (r, ·)).toList)

/-- The client survives the request that it issues, unless it still waits for a reply. -/
def Sends (n : Net σ ι (Talk ρ ω)) (x : Event ρ ι ε) : Prop :=
  ∀ e r, x = .issue e r → ¬ (S.awaits r ∧ (n.conn (S.connection r)).awaited.isSome) →
    (S.send e r).isSome

/-- The request that is served, the first one, is served exactly. -/
def Serves (n : Net σ ι (Talk ρ ω)) (x : Event ρ ι ε) : Prop :=
  ∀ e i r rest, x = .serve e i → (n.conn i).pending = r :: rest →
    Exact S e n.server r (rest.flatMap S.request)

def Survives (n : Net σ ι (Talk ρ ω)) (x : Event ρ ι ε) : Prop :=
  ∀ e i r rest, x = .serve e i → (n.conn i).pending = r :: rest →
    (S.answer e n.server r).isSome

/-- A client waits for one reply at most: it is there, or its request is still to be served. -/
structure Waits (t : Talk ρ ω) : Prop where
  one : t.replies.map Prod.fst ++ t.pending.filter S.awaits = t.awaited.toList
  awaits : ∀ r, t.awaited = some r → S.awaits r

/-- A connection without a request under way has nothing on its streams. -/
def Quiet (n : Net σ ι (Talk ρ ω)) : Prop :=
  ∀ i, (n.conn i).pending = [] → (n.conn i).awaited = none →
    ((links S n).conn i).toServer = [] ∧ ((links S n).conn i).toClient = []

variable {S} {n : Net σ ι (Talk ρ ω)} {t : Talk ρ ω} {x : Event ρ ι ε} {e : ε} {i : ι} {r : ρ}

/-! ### One reply at most -/

lemma waits_opened (server : σ) (i : ι) : Waits S ((opened server : Net σ ι (Talk ρ ω)).conn i) :=
  ⟨rfl, fun _ h => by cases h⟩

lemma Waits.eq_nil (h : Waits S t) (ha : t.awaited = none) :
    t.replies = [] ∧ t.pending.filter S.awaits = [] := by
  have hone := h.one
  rw [ha] at hone
  simpa using hone

lemma Waits.awaited_eq {p : ρ × ω} {ps : List (ρ × ω)} (h : Waits S t)
    (hp : t.replies = p :: ps) :
    t.awaited = some p.1 ∧ ps = [] ∧ t.pending.filter S.awaits = [] := by
  have hone := h.one
  rw [hp] at hone
  cases ha : t.awaited with
  | none => simp [ha] at hone
  | some r =>
    simp only [ha, List.map_cons, List.cons_append, Option.toList_some, List.cons.injEq,
      List.append_eq_nil_iff, List.map_eq_nil_iff] at hone
    obtain ⟨rfl, hps, hfilter⟩ := hone
    exact ⟨rfl, hps, hfilter⟩

lemma quiet_of_waits (h : ∀ i, Waits S (n.conn i)) : Quiet S n := by
  intro i hpending ha
  obtain ⟨hreplies, -⟩ := (h i).eq_nil ha
  simp [links, link, hpending, hreplies, replyBytes]

lemma Waits.issue (h : Waits S t) (hfree : ¬ (S.awaits r ∧ t.awaited.isSome)) :
    Waits S { t with
      pending := t.pending ++ [r], awaited := if S.awaits r then some r else t.awaited } := by
  cases hr : S.awaits r with
  | true =>
    have hnone : t.awaited = none := by simpa [hr] using hfree
    obtain ⟨hreplies, hpending⟩ := h.eq_nil hnone
    exact ⟨by simp [hreplies, hpending, hr], fun q hq => by cases hq; exact hr⟩
  | false =>
    have hone := h.one
    exact ⟨by simp [hone, hr], h.awaits⟩

lemma Waits.serve {rest : List ρ} {v : Option ω} (h : Waits S t) (hp : t.pending = r :: rest)
    (hv : v.isSome = S.awaits r) :
    Waits S { t with pending := rest, replies := t.replies ++ (v.map (r, ·)).toList } := by
  have hone := h.one
  rw [hp] at hone
  refine ⟨?_, h.awaits⟩
  cases v with
  | none =>
    have hr : S.awaits r = false := hv.symm
    simpa [hr] using hone
  | some w =>
    have hr : S.awaits r = true := hv.symm
    simpa [hr] using hone

lemma Waits.receive {p : ρ × ω} {ps : List (ρ × ω)} (h : Waits S t) (hp : t.replies = p :: ps)
    (received : List (ρ × ω)) :
    Waits S { t with replies := ps, awaited := none, received } := by
  obtain ⟨-, rfl, hfilter⟩ := h.awaited_eq hp
  exact ⟨by simp [hfilter], fun q hq => by cases hq⟩

/-! ### The streams of a session -/

@[simp] lemma links_server : (links S n).server = n.server := rfl

@[simp] lemma links_conn (i : ι) : (links S n).conn i = link S (n.conn i) := rfl

lemma link_issue (t : Talk ρ ω) (r : ρ) (awaited : Option ρ) :
    link S { t with pending := t.pending ++ [r], awaited } =
      { link S t with toServer := (link S t).toServer ++ S.request r, awaited } := by
  simp [link]

@[simp] lemma link_awaited (t : Talk ρ ω) : (link S t).awaited = t.awaited := rfl

lemma serves_iff {rest : List ρ} (hp : (n.conn i).pending = r :: rest) (e : ε) :
    Serves S n (.serve e i) ↔ Exact S e n.server r (rest.flatMap S.request) := by
  constructor
  · intro hserves
    exact hserves e i r rest rfl hp
  · intro hexact e' j q qs he hq
    cases he
    rw [hp, List.cons.injEq] at hq
    obtain ⟨rfl, rfl⟩ := hq
    exact hexact

/-! ### The steps -/

variable [DecidableEq ι] (S)

def linkStep (n : Net σ ι (Link ρ ω β)) : Event ρ ι ε → Option (Net σ ι (Link ρ ω β))
  | .issue e r =>
    let l := n.conn (S.connection r)
    if S.awaits r ∧ l.awaited.isSome then none
    else (S.send e r).map fun d => { n with
      conn := Function.update n.conn (S.connection r) { l with
        toServer := l.toServer ++ d, awaited := if S.awaits r then some r else l.awaited } }
  | .serve e i =>
    let l := n.conn i
    (S.serve e n.server l.toServer).map fun (server, rest, d) =>
      { server, conn := Function.update n.conn i { l with
          toServer := rest, toClient := l.toClient ++ d } }
  | .receive e i =>
    let l := n.conn i
    l.awaited.bind fun r => (S.receive e r l.toClient).map fun (v, rest) => { n with
      conn := Function.update n.conn i { l with
        toClient := rest, awaited := none, received := l.received ++ [(r, v)] } }

/-- A step of the session: the first request is served, and the first reply is read. -/
def talkStep (n : Net σ ι (Talk ρ ω)) : Event ρ ι ε → Option (Net σ ι (Talk ρ ω))
  | .issue _ r =>
    let t := n.conn (S.connection r)
    if S.awaits r ∧ t.awaited.isSome then none
    else some { n with
      conn := Function.update n.conn (S.connection r) { t with
        pending := t.pending ++ [r], awaited := if S.awaits r then some r else t.awaited } }
  | .serve e i =>
    let t := n.conn i
    t.pending.head?.bind fun r => (S.answer e n.server r).map fun (server, v) =>
      { server, conn := Function.update n.conn i { t with
          pending := t.pending.tail, replies := t.replies ++ (v.map (r, ·)).toList } }
  | .receive _ i =>
    let t := n.conn i
    if t.awaited.isSome then
      t.replies.head?.map fun reply => { n with
        conn := Function.update n.conn i { t with
          replies := t.replies.tail, awaited := none, received := t.received ++ [reply] } }
    else none

variable {S} {n' : Net σ ι (Talk ρ ω)}

lemma waits_step (hS : Lawful S) (hw : ∀ i, Waits S (n.conn i)) (h : talkStep S n x = some n') :
    ∀ i, Waits S (n'.conn i) := by
  have hset : ∀ (i : ι) (t : Talk ρ ω), Waits S t →
      ∀ j, Waits S (Function.update n.conn i t j) := fun i t ht =>
    (Function.forall_update_iff _ fun _ t => Waits S t).mpr ⟨ht, fun j _ => hw j⟩
  cases x with
  | issue e r =>
    simp only [talkStep, Option.ite_none_left_eq_some, Option.some.injEq] at h
    obtain ⟨hfree, rfl⟩ := h
    exact hset _ _ ((hw _).issue hfree)
  | serve e i =>
    cases hp : (n.conn i).pending with
    | nil => simp [talkStep, hp] at h
    | cons r rest =>
      simp only [talkStep, hp, List.head?_cons, Option.bind_some, Option.map_eq_some_iff] at h
      obtain ⟨⟨server, v⟩, hanswer, rfl⟩ := h
      exact hset _ _ ((hw i).serve hp (hS.isSome_of_answer hanswer))
  | receive e i =>
    simp only [talkStep, Option.ite_none_right_eq_some, Option.map_eq_some_iff] at h
    obtain ⟨-, p, hhead, rfl⟩ := h
    cases hp : (n.conn i).replies with
    | nil => simp [hp] at hhead
    | cons q ps =>
      obtain rfl : q = p := by simpa [hp] using hhead
      simp only [List.tail_cons]
      exact hset _ _ ((hw i).receive hp _)

/-! ### In step -/

lemma links_update (server : σ) (i : ι) (t : Talk ρ ω) :
    links S ⟨server, Function.update n.conn i t⟩ =
      ⟨server, Function.update (links S n).conn i (link S t)⟩ := by
  simp only [links, Function.comp_update]

/-- What is issued goes behind what is there, if the client survives it. -/
lemma issue_iff (hS : Lawful S) (e : ε) (r : ρ) :
    linkStep S (links S n) (.issue e r) = (talkStep S n (.issue e r)).map (links S) ↔
      Sends S n (.issue e r) := by
  have hsends : Sends S n (.issue e r) ↔
      (¬ (S.awaits r ∧ (n.conn (S.connection r)).awaited.isSome) → (S.send e r).isSome) :=
    ⟨fun h => h e r rfl, fun h e' r' hx => by cases hx; exact h⟩
  rw [hsends]
  simp only [linkStep, talkStep]
  by_cases hbusy : S.awaits r ∧ (n.conn (S.connection r)).awaited.isSome
  · have hbusy' : S.awaits r ∧ ((links S n).conn (S.connection r)).awaited.isSome := hbusy
    rw [if_pos hbusy, if_pos hbusy']
    exact iff_of_true rfl fun hfree => absurd hbusy hfree
  · have hfree : ¬ (S.awaits r ∧ ((links S n).conn (S.connection r)).awaited.isSome) := hbusy
    rw [if_neg hbusy, if_neg hfree]
    cases hsend : S.send e r with
    | none => exact iff_of_false (fun h => by cases h) fun h => by cases h hbusy
    | some d =>
      refine iff_of_true ?_ fun _ => rfl
      rw [hS.eq_request hsend, Option.map_some, Option.map_some, links_update, link_issue]
      rfl

/-- The reply that is there is the one that is read, by the client that waits for it. -/
lemma receive_eq (hS : Lawful S) (hw : ∀ i, Waits S (n.conn i)) (e : ε) (i : ι) :
    linkStep S (links S n) (.receive e i) = (talkStep S n (.receive e i)).map (links S) := by
  cases hp : (n.conn i).replies with
  | nil =>
    -- the client waits for bytes that have not been sent
    have hempty : (link S (n.conn i)).toClient = [] := by simp [link, hp, replyBytes]
    simp [linkStep, talkStep, hp, hempty, hS.receive_nil]
  | cons p ps =>
    obtain ⟨ha, rfl, -⟩ := (hw i).awaited_eq hp
    have hawaits : S.awaits p.1 := (hw i).awaits p.1 ha
    have hbytes : (link S (n.conn i)).toClient = S.reply p.1 p.2 := by simp [link, hp, replyBytes]
    simp only [linkStep, talkStep, links_conn, link_awaited, ha, hbytes, hp, Option.bind_some,
      hS.receive_reply e p.1 p.2 hawaits, Option.map_some, Option.isSome_some, if_true,
      List.head?_cons, List.tail_cons, links_update]
    rfl

def afterServe (n : Net σ ι (Link ρ ω β)) (i : ι) : σ × List β × List β → Net σ ι (Link ρ ω β) :=
  fun (server, rest, d) => { server, conn := Function.update n.conn i { n.conn i with
    toServer := rest, toClient := (n.conn i).toClient ++ d } }

lemma afterServe_injective (n : Net σ ι (Link ρ ω β)) (i : ι) :
    Function.Injective (afterServe n i) := by
  rintro ⟨s, rest, d⟩ ⟨s', rest', d'⟩ h
  simp only [afterServe, Net.mk.injEq] at h
  obtain ⟨rfl, hconn⟩ := h
  have hlink := congrFun hconn i
  simp only [Function.update_self, Link.mk.injEq, List.append_cancel_left_eq, and_true] at hlink
  obtain ⟨rfl, rfl⟩ := hlink
  rfl

/-- The server is in step exactly when it takes the bytes of the request and writes the reply's. -/
lemma serve_iff (hS : Lawful S) (e : ε) (i : ι) :
    linkStep S (links S n) (.serve e i) = (talkStep S n (.serve e i)).map (links S) ↔
      Serves S n (.serve e i) := by
  cases hp : (n.conn i).pending with
  | nil =>
    have hempty : (link S (n.conn i)).toServer = [] := by simp [link, hp]
    refine iff_of_true ?_ fun e' j r rest he hpending => ?_
    · simp [linkStep, talkStep, hempty, hS.serve_nil, hp]
    · cases he
      rw [hp] at hpending
      cases hpending
  | cons r rest =>
    have hbytes : (link S (n.conn i)).toServer = S.request r ++ rest.flatMap S.request := by
      simp [link, hp]
    have hleft : linkStep S (links S n) (.serve e i) =
        (S.serve e n.server (S.request r ++ rest.flatMap S.request)).map
          (afterServe (links S n) i) := by
      rw [← hbytes]
      rfl
    have hright : (talkStep S n (.serve e i)).map (links S) =
        ((S.answer e n.server r).map fun (s', v) => (s', rest.flatMap S.request,
          replyBytes S (v.map (r, ·)).toList)).map (afterServe (links S n) i) := by
      simp only [talkStep, hp, List.head?_cons, Option.bind_some, Option.map_map]
      congr 1
      funext ⟨s', v⟩
      simp [links_update, afterServe, link, replyBytes]
    rw [hleft, hright, (Option.map_injective (afterServe_injective _ i)).eq_iff, serves_iff hp]
    rfl

lemma linkStep_iff (hS : Lawful S) (hw : ∀ i, Waits S (n.conn i)) (x : Event ρ ι ε) :
    linkStep S (links S n) x = (talkStep S n x).map (links S) ↔ Sends S n x ∧ Serves S n x := by
  cases x with
  | issue e r =>
    refine (issue_iff hS e r).trans (and_iff_left fun _ _ _ _ he => ?_).symm
    cases he
  | serve e i =>
    refine (serve_iff hS e i).trans (and_iff_right fun _ _ he => ?_).symm
    cases he
  | receive e i =>
    refine iff_of_true (receive_eq hS hw e i) ⟨fun _ _ he => ?_, fun _ _ _ _ he => ?_⟩ <;>
    cases he

/-- **Streams in step.** The code runs as the session does, with the session's messages on its
streams and with the replies the session means, exactly as long as the clients survive what they
issue and each request is served exactly. -/
theorem inStep_iff (hS : Lawful S) (hw : ∀ i, Waits S (n.conn i)) (xs : List (Event ρ ι ε)) :
    (∀ ys, ys <+: xs →
      run (linkStep S) (links S n) ys = (run (talkStep S) n ys).map (links S)) ↔
    Meets (talkStep S) (fun n x => Sends S n x ∧ Serves S n x) n xs :=
  forall_prefix_map_iff_meets (I := fun n => ∀ i, Waits S (n.conn i))
    (fun _ _ _ hw h => waits_step hS hw h) (fun _ x hw => linkStep_iff hS hw x) hw

def Served (S : Service σ ρ ω ι ε β) (n : Net σ ι (Talk ρ ω)) (x : Event ρ ι ε) : Prop :=
  ∀ e i, x = .serve e i → (n.conn i).pending ≠ [] → (linkStep S (links S n) x).isSome

lemma served_iff_survives (hS : Lawful S) (hw : ∀ i, Waits S (n.conn i))
    (hstep : Sends S n x ∧ Serves S n x) : Served S n x ↔ Survives S n x := by
  have hlink := (linkStep_iff hS hw x).mpr hstep
  constructor
  · rintro hserved e i r rest rfl hp
    have hsome := hserved e i rfl (by simp [hp])
    rw [hlink] at hsome
    simpa [talkStep, hp] using hsome
  · rintro hsurvives e i rfl hne
    obtain ⟨r, rest, hp⟩ := List.exists_cons_of_ne_nil hne
    have hsome := hsurvives e i r rest rfl hp
    rw [hlink]
    simpa [talkStep, hp] using hsome

/-- **Streams in step, to the end.** And every request is served exactly as long as, besides, the
server survives it. -/
theorem inStep_served_iff (hS : Lawful S) (hw : ∀ i, Waits S (n.conn i))
    (xs : List (Event ρ ι ε)) :
    ((∀ ys, ys <+: xs →
        run (linkStep S) (links S n) ys = (run (talkStep S) n ys).map (links S)) ∧
      ∀ ys x, ys ++ [x] <+: xs → ∀ n', run (talkStep S) n ys = some n' → Served S n' x) ↔
    Meets (talkStep S) (fun n x => (Sends S n x ∧ Serves S n x) ∧ Survives S n x) n xs := by
  rw [inStep_iff hS hw, ← meets_iff_forall_prefix]
  have hboth : Meets (talkStep S) (fun n x => (Sends S n x ∧ Serves S n x) ∧ Served S n x) n xs ↔
      Meets (talkStep S) (fun n x => (Sends S n x ∧ Serves S n x) ∧ Survives S n x) n xs :=
    meets_iff_meets (R := fun _ => True) (I := fun n => ∀ i, Waits S (n.conn i))
      (fun _ _ hw _ => and_congr_right fun hstep => served_iff_survives hS hw hstep)
      (fun _ _ _ hw _ _ h => waits_step hS hw h) hw fun _ _ => trivial
  rw [← hboth]
  exact ⟨fun h => h.1.and h.2, fun h => ⟨h.mono fun _ _ => And.left, h.mono fun _ _ => And.right⟩⟩

/-- In every state of a session a connection without a request under way is empty. -/
theorem quiet_of_run (hS : Lawful S) (hw : ∀ i, Waits S (n.conn i)) {xs : List (Event ρ ι ε)}
    (h : run (talkStep S) n xs = some n') : Quiet S n' :=
  quiet_of_waits (Reachable.inv (I := fun n => ∀ i, Waits S (n.conn i))
    (fun _ _ _ hw h => waits_step hS hw h) hw ⟨xs, h⟩)

end Service

end Sski.Lib.Duplex
