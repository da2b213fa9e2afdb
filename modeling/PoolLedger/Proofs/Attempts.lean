import Mathlib.Data.Nat.Find
import Mathlib.Logic.Function.Iterate
import Mathlib.Tactic.IntervalCases
import PoolLedger.Node.Script
import PoolLedger.Proofs.Outcome
import PoolLedger.Source.Node

/-!
# Attempts

A client is meant to send a request until a response has the status 200, up to `maxAttempts` times,
and to report after that many that all attempts failed (`Settled`). It does so if, and only if,
every response before the first with this status is clear (`settled_iff_clear`): its status says
that the node cannot answer now, or its body is a JSON object. The body of any other response is
read before its status counts, and what is wrong with the body ends the attempts: a page in HTML
does (`pageLine_not_settled`).

A reply by itself either passes, so that the client asks again, or decides. Those that are no
answer pass if, and only if, they are clear (`passes_of_isClear`, `decides_of_not_isClear`). The
attempts go to the first reply that decides (`attempt_of_decisive`), or to their end if none
does (`attempt_of_passing`); both are by induction, over the replies before the first that
decides and over the attempts left.
-/

namespace PoolLedger

/-! ## Replies -/

namespace Reply

def status? : Reply → Option Int
  | response status _ => some status
  | failure => none

/-- A reply that does not hide its status: the node cannot answer now, so that the body does not
count, or the body is an object. -/
def IsClear : Reply → Prop
  | response status body => isUnavailable status = true ∨ ∃ ms, readBody body = .ok (.obj ms)
  | failure => False

/-- A reply after which the client asks again. -/
def Passes (path : String) (r : Reply) : Prop :=
  ∃ e, r.read path = .error e ∧ e.isRetried = true

/-- A reply after which the client asks no more. -/
def Decides (path : String) (r : Reply) (outcome : Except NodeError Json) : Prop :=
  r.read path = outcome ∧ ∀ e, outcome = .error e → e.isRetried = false

variable {path : String} {r : Reply}

theorem Decides.not_passes {outcome : Except NodeError Json} (h : r.Decides path outcome) :
    ¬ r.Passes path := by
  rintro ⟨e, hread, hretried⟩
  have hfalse := h.2 e (h.1.symm.trans hread)
  simp [hretried] at hfalse

theorem eq_response_of_status? {status : Int} (h : r.status? = some status) :
    ∃ body, r = .response status body := by
  cases r with
  | failure => simp [status?] at h
  | response s body => exact ⟨body, by simpa [status?] using h⟩

theorem decides_of_answer {body : String} {ms : Members} (hbody : readBody body = .ok (.obj ms)) :
    (response 200 body).Decides path (.ok (.obj ms)) := by
  refine ⟨?_, by simp⟩
  simp [read, isUnavailable, hbody, bind, Except.bind, pure, Except.pure]

theorem passes_of_isClear (hclear : r.IsClear)
    (hstatus : r.status? ≠ some 200) : r.Passes path := by
  cases r with
  | failure => exact hclear.elim
  | response status body =>
    have hrefused : status ≠ 200 := by simpa [status?] using hstatus
    cases havailable : isUnavailable status with
    | true => exact ⟨.unavailable status path, by simp [read, havailable], rfl⟩
    | false =>
      obtain ⟨ms, hbody⟩ := hclear.resolve_left (by simp [havailable])
      refine ⟨.refused status path ((Members.get? ms "message").getD (.obj ms)).inText, ?_, rfl⟩
      simp [read, havailable, hbody, hrefused, refusal, bind, Except.bind, throw, throwThe,
        MonadExceptOf.throw]

/-- What is wrong with a body is nothing that may pass. -/
theorem not_isRetried_of_readBody {body : String} {e : NodeError} (h : readBody body = .error e) :
    e.isRetried = false ∧ ∀ last, e ≠ .exhausted last := by
  unfold readBody at h
  split at h
  · cases h; simp [NodeError.isRetried]
  · rename_i text _
    cases hparse : Json.parse text with
    | ok v => simp [hparse, Except.mapError] at h
    | error cause =>
      rw [hparse] at h
      cases cause <;> cases h <;> simp [NodeError.isRetried]

/-- A page that is no JSON object decides, whatever is wrong with it. -/
theorem decides_of_not_isClear (hresponse : r ≠ .failure) (hstatus : r.status? ≠ some 200)
    (hclear : ¬ r.IsClear) :
    ∃ e, r.Decides path (.error e) ∧ e.isRetried = false ∧ ∀ last, e ≠ .exhausted last := by
  cases r with
  | failure => exact absurd rfl hresponse
  | response status body =>
    have hrefused : status ≠ 200 := by simpa [status?] using hstatus
    have havailable : isUnavailable status = false := by
      by_contra h
      exact hclear (.inl (by simpa using h))
    have hpage : ∀ ms, readBody body ≠ .ok (.obj ms) := fun ms h => hclear (.inr ⟨ms, h⟩)
    cases hbody : readBody body with
    | error e =>
      obtain ⟨hfinal, hlast⟩ := not_isRetried_of_readBody hbody
      refine ⟨e, ⟨by simp [read, havailable, hbody, bind, Except.bind], ?_⟩, hfinal, hlast⟩
      rintro _ ⟨⟩
      exact hfinal
    | ok data =>
      have hrefusal : refusal data = .error .notObject := by
        cases data with
        | obj ms => exact absurd hbody (hpage ms)
        | _ => rfl
      refine ⟨.notObject, ⟨?_, ?_⟩, rfl, by simp⟩
      · simp [read, havailable, hbody, hrefused, hrefusal, bind, Except.bind]
      · rintro _ ⟨⟩
        rfl

end Reply

namespace Client

variable {σ : Type} {c : Client σ} {path : String} {height : Option Int} {request : Request}

/-! ## Asking again -/

/-- The request that is sent for a path at an address that says where it is. -/
def Sends (c : Client σ) (path : String) (height : Option Int) (request : Request) : Prop :=
  Address.ofText? (trimBase c.base ++ path) = some request.address ∧
    request.address.isAbsolute = true ∧ request.height = height

/-- The reply to request number `n`, counted from zero, if the node is sent the same
request again and again. -/
def replyTo (c : Client σ) (request : Request) (s : σ) (n : Nat) : Reply :=
  (c.node request ((fun s => (c.node request s).2)^[n] s)).1

/-- The line when a request has been sent in attempt `n` and the pause after it is over. -/
def onward (c : Client σ) (request : Request) (n : Nat) (line : Line σ) : Line σ :=
  { (c.send request line).2 with pauses := line.pauses ++ [pauseAfter n] }

@[simp]
theorem onward_requests (c : Client σ) (request : Request) (n : Nat) (line : Line σ) :
    (c.onward request n line).requests = line.requests ++ [request] := rfl

@[simp]
theorem replyTo_onward (c : Client σ) (request : Request) (n : Nat) (line : Line σ) (m : Nat) :
    c.replyTo request (c.onward request n line).node m = c.replyTo request line.node (m + 1) := rfl

theorem passes_onward (c : Client σ) (n : Nat) (line : Line σ) {k : Nat}
    (h : ∀ m < k + 1, (c.replyTo request line.node m).Passes path) :
    ∀ m < k, (c.replyTo request (c.onward request n line).node m).Passes path := by
  intro m hm
  rw [replyTo_onward]
  exact h (m + 1) (Nat.succ_lt_succ hm)

theorem ask_eq (h : c.Sends path height request) (line : Line σ) :
    c.ask path height line =
      ((c.replyTo request line.node 0).read path, (c.send request line).2) := by
  obtain ⟨haddress, habsolute, rfl⟩ := h
  simp [ask, haddress, habsolute, send, replyTo]

theorem attempt_of_decides (h : c.Sends path height request) {outcome : Except NodeError Json}
    (n left : Nat) (line : Line σ)
    (hdecides : (c.replyTo request line.node 0).Decides path outcome) :
    attempt (c.ask path height) n left line = (outcome, (c.send request line).2) := by
  obtain ⟨hread, hfinal⟩ := hdecides
  rw [attempt, ask_eq h, hread]
  cases outcome with
  | ok data => rfl
  | error e => simp [hfinal e rfl]

theorem attempt_of_passes (h : c.Sends path height request) (n left : Nat) (line : Line σ)
    (hpass : (c.replyTo request line.node 0).Passes path) :
    attempt (c.ask path height) n (left + 1) line =
      attempt (c.ask path height) (n + 1) left (c.onward request n line) := by
  obtain ⟨e, hread, hretried⟩ := hpass
  rw [attempt, ask_eq h, hread]
  simp only [hretried, if_true]
  rfl

/-- The attempts end with the first reply that decides. -/
theorem attempt_of_decisive (h : c.Sends path height request) {outcome : Except NodeError Json}
    {k left : Nat} (hk : k ≤ left) (n : Nat) (line : Line σ)
    (hpass : ∀ m < k, (c.replyTo request line.node m).Passes path)
    (hdecides : (c.replyTo request line.node k).Decides path outcome) :
    (attempt (c.ask path height) n left line).1 = outcome ∧
      (attempt (c.ask path height) n left line).2.requests =
        line.requests ++ List.replicate (k + 1) request := by
  induction k generalizing left n line with
  | zero =>
    rw [attempt_of_decides h n left line hdecides]
    exact ⟨rfl, rfl⟩
  | succ k ih =>
    obtain ⟨l, rfl⟩ : ∃ l, left = l + 1 := ⟨left - 1, by omega⟩
    rw [attempt_of_passes h n l line (hpass 0 (by omega))]
    rw [← replyTo_onward c request n] at hdecides
    obtain ⟨houtcome, hrequests⟩ :=
      ih (Nat.le_of_succ_le_succ hk) (n + 1) _ (passes_onward c n line hpass) hdecides
    exact ⟨houtcome, by rw [hrequests]; simp [List.replicate_succ]⟩

theorem attempt_of_passing (h : c.Sends path height request) (n left : Nat) (line : Line σ)
    (hpass : ∀ m < left + 1, (c.replyTo request line.node m).Passes path) :
    (∃ e, (attempt (c.ask path height) n left line).1 = .error (.exhausted e) ∧
      e.isRetried = true) ∧
      (attempt (c.ask path height) n left line).2.requests =
        line.requests ++ List.replicate (left + 1) request := by
  induction left generalizing n line with
  | zero =>
    obtain ⟨e, hread, hretried⟩ := hpass 0 (by omega)
    rw [attempt, ask_eq h, hread]
    simp [hretried, send]
  | succ left ih =>
    rw [attempt_of_passes h n left line (hpass 0 (by omega))]
    obtain ⟨houtcome, hrequests⟩ := ih (n + 1) _ (passes_onward c n line hpass)
    exact ⟨houtcome, by rw [hrequests]; simp [List.replicate_succ]⟩

/-! ## What asking comes to -/

/-- The outcome of asking, and the number of requests, as they are meant to follow from the
replies: the value of the first answer, or, if none of the replies to all attempts is one,
that these are used up. -/
inductive Settled (replies : Nat → Reply) : Except NodeError Json → Nat → Prop
  | answered {n : Nat} {body : String} {ms : Members} :
      n < maxAttempts → (∀ m < n, (replies m).status? ≠ some 200) →
      replies n = .response 200 body → readBody body = .ok (.obj ms) →
      Settled replies (.ok (.obj ms)) (n + 1)
  | exhausted {e : NodeError} :
      (∀ m < maxAttempts, (replies m).status? ≠ some 200) → e.isRetried = true →
      Settled replies (.error (.exhausted e)) maxAttempts

/-- Every reply to an attempt that is no answer, nor behind one, is clear. -/
def ClearUntilAnswered (replies : Nat → Reply) : Prop :=
  ∀ n < maxAttempts, (∀ m ≤ n, (replies m).status? ≠ some 200) → (replies n).IsClear

/-- The first reply that is not clear ends the attempts, and there is no answer before it. -/
def EndsAtUnclear (replies : Nat → Reply) (outcome : Except NodeError Json) (sent : Nat) : Prop :=
  ∃ n < maxAttempts, sent = n + 1 ∧ (∀ m ≤ n, (replies m).status? ≠ some 200) ∧
    (∀ m < n, (replies m).IsClear) ∧ ¬ (replies n).IsClear ∧
    ∃ e, outcome = .error e ∧ e.isRetried = false ∧ ∀ last, e ≠ .exhausted last

/-- What is assumed of the replies: they are responses, and those with the status of an
answer hold an object. -/
structure Responds (replies : Nat → Reply) : Prop where
  reached : ∀ n < maxAttempts, replies n ≠ .failure
  answers : ∀ n < maxAttempts, ∀ body, replies n = .response 200 body →
    ∃ ms, readBody body = .ok (.obj ms)

variable {replies : Nat → Reply} {outcome : Except NodeError Json} {sent : Nat}

theorem EndsAtUnclear.not_settled (h : EndsAtUnclear replies outcome sent) :
    ¬ Settled replies outcome sent := by
  obtain ⟨_, _, _, _, _, _, e, rfl, _, hlast⟩ := h
  intro hsettled
  cases hsettled
  exact hlast _ rfl

theorem EndsAtUnclear.not_clear (h : EndsAtUnclear replies outcome sent) :
    ¬ ClearUntilAnswered replies := by
  obtain ⟨n, hn, _, hnone, _, hunclear, _⟩ := h
  exact fun hclear => hunclear (hclear n hn hnone)

theorem Responds.passes_iff (h : Responds replies) {n : Nat} (hn : n < maxAttempts) :
    (replies n).Passes path ↔ (replies n).status? ≠ some 200 ∧ (replies n).IsClear := by
  constructor
  · intro hpass
    have hstatus : (replies n).status? ≠ some 200 := by
      intro hstatus
      obtain ⟨body, hreply⟩ := Reply.eq_response_of_status? hstatus
      obtain ⟨ms, hbody⟩ := h.answers n hn body hreply
      rw [hreply] at hpass
      exact (Reply.decides_of_answer hbody).not_passes hpass
    refine ⟨hstatus, ?_⟩
    by_contra hclear
    obtain ⟨e, hdecides, _⟩ := Reply.decides_of_not_isClear (h.reached n hn) hstatus hclear
    exact hdecides.not_passes hpass
  · rintro ⟨hstatus, hclear⟩
    exact Reply.passes_of_isClear hclear hstatus

theorem get_run (c : Client σ) (path : String) (height : Option Int) (line : Line σ) :
    (c.get path height).run line = attempt (c.ask path height) 1 (maxAttempts - 1) line := by
  simp only [get, ExceptT.run]

/-- If no reply decides, none is an answer and all are clear. -/
theorem settled_of_passing (hsends : c.Sends path height request) (line : Line σ)
    (hresponds : Responds (c.replyTo request line.node))
    (hpass : ∀ m < maxAttempts, (c.replyTo request line.node m).Passes path) :
    ((c.get path height).run line).2.requests =
        line.requests ++ List.replicate maxAttempts request ∧
      Settled (c.replyTo request line.node) ((c.get path height).run line).1 maxAttempts ∧
      ClearUntilAnswered (c.replyTo request line.node) := by
  rw [get_run]
  obtain ⟨⟨e, houtcome, hretried⟩, hrequests⟩ :=
    attempt_of_passing hsends 1 (maxAttempts - 1) line hpass
  refine ⟨hrequests, ?_, fun n hn _ => ((hresponds.passes_iff hn).mp (hpass n hn)).2⟩
  rw [houtcome]
  exact .exhausted (fun m hm => ((hresponds.passes_iff hm).mp (hpass m hm)).1) hretried

/-- The first reply that decides is an answer behind clear replies, or is not clear. -/
theorem settled_or_endsAtUnclear (hsends : c.Sends path height request) (line : Line σ)
    (hresponds : Responds (c.replyTo request line.node)) {n : Nat} (hn : n < maxAttempts)
    (hpass : ∀ m < n, (c.replyTo request line.node m).Passes path)
    (hfirst : ¬ (c.replyTo request line.node n).Passes path) :
    ((c.get path height).run line).2.requests =
        line.requests ++ List.replicate (n + 1) request ∧
      (Settled (c.replyTo request line.node) ((c.get path height).run line).1 (n + 1) ∧
          ClearUntilAnswered (c.replyTo request line.node) ∨
        EndsAtUnclear (c.replyTo request line.node) ((c.get path height).run line).1 (n + 1)) := by
  rw [get_run]
  have hbefore : ∀ m < n, (c.replyTo request line.node m).status? ≠ some 200 ∧
      (c.replyTo request line.node m).IsClear := fun m hm =>
    (hresponds.passes_iff (Nat.lt_trans hm hn)).mp (hpass m hm)
  -- What does not pass is an answer, or is not clear.
  by_cases hstatus : (c.replyTo request line.node n).status? = some 200
  · obtain ⟨body, hreply⟩ := Reply.eq_response_of_status? hstatus
    obtain ⟨ms, hbody⟩ := hresponds.answers n hn body hreply
    obtain ⟨houtcome, hrequests⟩ :=
      attempt_of_decisive hsends (Nat.le_sub_one_of_lt hn) 1 line hpass
      (hreply ▸ Reply.decides_of_answer hbody)
    refine ⟨hrequests, .inl ⟨?_, ?_⟩⟩
    · rw [houtcome]
      exact .answered hn (fun m hm => (hbefore m hm).1) hreply hbody
    · intro m _ hnone
      have hlt : m < n := Nat.lt_of_not_le fun hle => hnone n hle hstatus
      exact (hbefore m hlt).2
  · have hunclear : ¬ (c.replyTo request line.node n).IsClear := fun hclear =>
      hfirst (Reply.passes_of_isClear hclear hstatus)
    obtain ⟨e, hdecides, hfinal, hlast⟩ :=
      Reply.decides_of_not_isClear (hresponds.reached n hn) hstatus hunclear
    obtain ⟨houtcome, hrequests⟩ :=
      attempt_of_decisive hsends (Nat.le_sub_one_of_lt hn) 1 line hpass hdecides
    have hnone : ∀ m ≤ n, (c.replyTo request line.node m).status? ≠ some 200 := by
      intro m hm
      rcases Nat.lt_or_eq_of_le hm with hlt | rfl
      · exact (hbefore m hlt).1
      · exact hstatus
    exact ⟨hrequests, .inr ⟨n, hn, rfl, hnone, fun m hm => (hbefore m hm).2, hunclear,
      e, houtcome, hfinal, hlast⟩⟩

/-- Asking is settled as it is meant to be if every reply before the first answer is clear, and
otherwise ends at the first that is not. -/
theorem settled_iff_clear (c : Client σ) (path : String) (height : Option Int) (request : Request)
    (line : Line σ) (hsends : c.Sends path height request)
    (hresponds : Responds (c.replyTo request line.node)) :
    ∃ sent, ((c.get path height).run line).2.requests =
        line.requests ++ List.replicate sent request ∧
      (Settled (c.replyTo request line.node) ((c.get path height).run line).1 sent ↔
        ClearUntilAnswered (c.replyTo request line.node)) ∧
      (¬ ClearUntilAnswered (c.replyTo request line.node) →
        EndsAtUnclear (c.replyTo request line.node) ((c.get path height).run line).1 sent) := by
  by_cases hall : ∀ m < maxAttempts, (c.replyTo request line.node m).Passes path
  · obtain ⟨hrequests, hsettled, hclear⟩ := settled_of_passing hsends line hresponds hall
    exact ⟨maxAttempts, hrequests, iff_of_true hsettled hclear, absurd hclear⟩
  · have hexists : ∃ n, n < maxAttempts ∧ ¬ (c.replyTo request line.node n).Passes path := by
      simpa using hall
    classical
    obtain ⟨hn, hfirst⟩ := Nat.find_spec hexists
    have hpass : ∀ m < Nat.find hexists, (c.replyTo request line.node m).Passes path := by
      intro m hm
      by_contra hnot
      exact Nat.find_min hexists hm ⟨Nat.lt_trans hm hn, hnot⟩
    obtain ⟨hrequests, ⟨hsettled, hclear⟩ | hends⟩ :=
      settled_or_endsAtUnclear hsends line hresponds hn hpass hfirst
    · exact ⟨_, hrequests, iff_of_true hsettled hclear, absurd hclear⟩
    · exact ⟨_, hrequests, iff_of_false hends.not_settled hends.not_clear, fun _ => hends⟩

/-! A node that is out of order, then explains itself, and then answers; and one that shows a
page. -/

def latestRequest : Request where
  address := { scheme := "http", host := "lcd.local", path := latestPath }

def localClient : Client Script where
  base := "http://lcd.local/"
  node := Script.node

def recoveringLine : Line Script where
  node := [(latestPath, [.response 503 "", .response 404 "\x7b\"message\": \"not yet\"\x7d",
    .response 200 "\x7b\"block\": null\x7d"])]

theorem localClient_sends : localClient.Sends latestPath none latestRequest :=
  ⟨by decide +kernel, by decide +kernel, rfl⟩

theorem recoveringLine_replies :
    localClient.replyTo latestRequest recoveringLine.node 0 = .response 503 "" ∧
      localClient.replyTo latestRequest recoveringLine.node 1 =
        .response 404 "\x7b\"message\": \"not yet\"\x7d" ∧
      localClient.replyTo latestRequest recoveringLine.node 2 =
        .response 200 "\x7b\"block\": null\x7d" := by
  decide +kernel

theorem recoveringLine_responds :
    Responds (localClient.replyTo latestRequest recoveringLine.node) where
  reached := by decide +kernel
  answers n hn body hreply := by
    obtain ⟨h0, h1, h2⟩ := recoveringLine_replies
    simp only [maxAttempts] at hn
    interval_cases n
    · simp [h0] at hreply
    · simp [h1] at hreply
    · obtain rfl : _ = body := by simpa [h2] using hreply
      exact ⟨[("block", .null)], by decide +kernel⟩

theorem recoveringLine_clear :
    ClearUntilAnswered (localClient.replyTo latestRequest recoveringLine.node) := by
  intro n hn hnone
  obtain ⟨h0, h1, h2⟩ := recoveringLine_replies
  simp only [maxAttempts] at hn
  interval_cases n
  · rw [h0]
    exact .inl rfl
  · rw [h1]
    exact .inr ⟨[("message", .str "not yet")], by decide +kernel⟩
  · exact absurd (by rw [h2]; rfl) (hnone 2 (Nat.le_refl 2))

theorem recoveringLine_settled :
    localClient.Sends latestPath none latestRequest ∧
      Responds (localClient.replyTo latestRequest recoveringLine.node) ∧
      ∃ sent, ((localClient.get latestPath none).run recoveringLine).2.requests =
          List.replicate sent latestRequest ∧
        Settled (localClient.replyTo latestRequest recoveringLine.node)
          ((localClient.get latestPath none).run recoveringLine).1 sent := by
  obtain ⟨sent, hrequests, hiff, _⟩ := settled_iff_clear localClient latestPath none latestRequest
    recoveringLine localClient_sends recoveringLine_responds
  exact ⟨localClient_sends, recoveringLine_responds, sent, hrequests, hiff.mpr recoveringLine_clear⟩

def pageLine : Line Script where
  node := [(latestPath, [.response 404 "<html>not found</html>",
    .response 200 "\x7b\"block\": null\x7d"])]

theorem pageLine_responds : Responds (localClient.replyTo latestRequest pageLine.node) where
  reached := by decide +kernel
  answers n hn body hreply := by
    have hreplies : localClient.replyTo latestRequest pageLine.node 0 =
          .response 404 "<html>not found</html>" ∧
        localClient.replyTo latestRequest pageLine.node 1 =
          .response 200 "\x7b\"block\": null\x7d" ∧
        localClient.replyTo latestRequest pageLine.node 2 =
          .response 200 "\x7b\"block\": null\x7d" := by
      decide +kernel
    obtain ⟨h0, h1, h2⟩ := hreplies
    simp only [maxAttempts] at hn
    have hanswer : readBody "\x7b\"block\": null\x7d" = .ok (.obj [("block", .null)]) := by
      decide +kernel
    interval_cases n
    · simp [h0] at hreply
    · obtain rfl : _ = body := by simpa [h1] using hreply
      exact ⟨_, hanswer⟩
    · obtain rfl : _ = body := by simpa [h2] using hreply
      exact ⟨_, hanswer⟩

/-- The page ends the attempts after one request, and the answer behind it is not asked for. -/
theorem pageLine_not_settled :
    localClient.Sends latestPath none latestRequest ∧
      Responds (localClient.replyTo latestRequest pageLine.node) ∧
      ((localClient.get latestPath none).run pageLine).1 = .error .notJson ∧
      ((localClient.get latestPath none).run pageLine).2.requests = [latestRequest] ∧
      ¬ ∃ sent, Settled (localClient.replyTo latestRequest pageLine.node)
        ((localClient.get latestPath none).run pageLine).1 sent := by
  have houtcome : ((localClient.get latestPath none).run pageLine).1 = .error .notJson := by
    decide +kernel
  refine ⟨localClient_sends, pageLine_responds, houtcome, by decide +kernel, ?_⟩
  rintro ⟨sent, hsettled⟩
  rw [houtcome] at hsettled
  cases hsettled

end Client

end PoolLedger
