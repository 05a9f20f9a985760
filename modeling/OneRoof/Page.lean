import Mathlib.Data.List.Nodup
import OneRoof.Feed
import OneRoof.Lib.Traces
import OneRoof.Runs

/-!
# The page and the server

The controller of the feed page, its requests on their way, and the server. A request can
arrive after later ones, what the server has in flight settles in any order, and an answer
reaches the page at any time after it was given. A request that is answered is answered
once; some are never answered.
-/

namespace OneRoof

open Sql Async
open Feed (Click)

variable {P : Platform}

/-- The answer of a request, once it has been given. -/
def World.reply (w : World P) (rid : Nat) : Option Answer := w.log.findSome? fun e => match e with
  | .answered c answer _ => if c.rid = rid then some answer else none
  | _ => none

/-- A request of the page that has arrived: the number of clicks before the one that posted
it, and its number at the server. -/
structure Served where
  tag : Nat
  rid : Nat
  post : Post

/-- An answer that has reached the page, after so many clicks. -/
structure Receipt where
  after : Nat
  post : Post
  data : JsVal

structure Page (P : Platform) where
  feed : Feed
  backend : Config P
  clicks : List Click := []
  /-- The requests that have not arrived, with the number of clicks before their own. -/
  sent : List (Nat × Post) := []
  /-- The requests that have arrived and whose answers have not reached the page. -/
  served : List Served := []
  received : List Receipt := []

/-- What happens next. -/
inductive Page.Move where
  | click (m : Click)
  | deliver (i : Nat) (env : Request)
  | serve (i : Nat) (lost : Bool)
  | receive (j : Nat)

def Post.request (sid : Nat) (env : Request) (post : Post) : Request :=
  { env with sid := sid, route := post.route, body := post.body }

namespace Page

def click (m : Click) (p : Page P) : Page P :=
  { p with
    feed := (p.feed.click m).1
    sent := p.sent ++ (p.feed.click m).2.map (p.clicks.length, ·)
    clicks := p.clicks ++ [m] }

/-- A request arrives, not necessarily the oldest. -/
def deliver (sid i : Nat) (env : Request) (p : Page P) : Page P := match p.sent[i]? with
  | some (tag, post) =>
    { p with
      backend := step (server P) (.arrive (post.request sid env)) p.backend
      sent := p.sent.eraseIdx i
      served := p.served ++ [⟨tag, p.backend.world.nextReq, post⟩] }
  | none => p

/-- The answer of a request reaches the page. -/
def receive (j : Nat) (p : Page P) : Page P := match p.served[j]? with
  | some s => match p.backend.world.reply s.rid with
    | some (.json data) =>
      { p with
        feed := (p.feed.answered s.post.call data).1
        sent := p.sent ++ (p.feed.answered s.post.call data).2.map (p.clicks.length, ·)
        served := p.served.eraseIdx j
        received := p.received ++ [⟨p.clicks.length, s.post, data⟩] }
    | some _ => { p with served := p.served.eraseIdx j }
    | none => p
  | none => p

def move (sid : Nat) : Move → Page P → Page P
  | .click m, p => p.click m
  | .deliver i env, p => p.deliver sid i env
  | .serve i lost, p => { p with backend := settle (server P) i lost p.backend }
  | .receive j, p => p.receive j

def run (sid : Nat) (ms : List Move) (p : Page P) : Page P := Traces.run (move sid) ms p

/-- The page is open, and no request is on its way. -/
def opened (feed : Feed) (db : Database P.collate) (store : Nat → Option SessionUser) : Page P :=
  { feed, backend := ⟨World.fresh P db store, []⟩ }

/-- Nothing is on its way, the server has nothing to do, and what has been answered has
reached the page. -/
def Quiet (p : Page P) : Prop :=
  p.sent = [] ∧ p.backend.pending = [] ∧ ∀ s ∈ p.served, p.backend.world.reply s.rid = none

instance (p : Page P) : Decidable p.Quiet :=
  decidable_of_iff (p.sent.isEmpty = true ∧ p.backend.pending.isEmpty = true ∧
    p.served.all (fun s => (p.backend.world.reply s.rid).isNone) = true) (by simp [Quiet])

/-- The server knows the requests that have arrived. -/
structure Linked (p : Page P) : Prop where
  fresh : Fresh p.backend
  served : ∀ s ∈ p.served, s.rid < p.backend.world.nextReq

end Page

section Replies

variable {w : World P} {rid : Nat} {answer : Answer}

/-- What reaches the page has been answered. -/
theorem reply_mem (replies : w.reply rid = some answer) :
    ∃ c user, .answered c answer user ∈ w.log ∧ c.rid = rid := by
  obtain ⟨e, mem, found⟩ := List.exists_of_findSome?_eq_some replies
  cases e with
  | answered c given user =>
    dsimp only at found
    split at found
    · cases found
      exact ⟨c, user, mem, by assumption⟩
    · cases found
  | _ => cases found

/-- What has been answered stays the answer. -/
theorem reply_mono {w' : World P} (grows : w.log <+: w'.log) (replies : w.reply rid = some answer) :
    w'.reply rid = some answer := by
  obtain ⟨new, log⟩ := grows
  have first : w.log.findSome? _ = some answer := replies
  rw [World.reply, ← log, List.findSome?_append, first]
  rfl

theorem reply_of_unanswered (unanswered : w.log.any (Event.answers rid) = false) :
    w.reply rid = none := by
  cases replies : w.reply rid with
  | none => rfl
  | some answer =>
    obtain ⟨c, user, mem, rfl⟩ := reply_mem replies
    rw [List.any_eq_false] at unanswered
    exact absurd (decide_eq_true rfl) (unanswered _ mem)

/-- The first answer of a request is the one that counts. -/
theorem reply_first {log : List Event} {c : Ctx} {user : Option SessionUser}
    (unanswered : log.any (Event.answers c.rid) = false)
    (logged : w.log = log ++ [.answered c answer user]) : w.reply c.rid = some answer := by
  have none : World.reply { w with log := log } c.rid = none := reply_of_unanswered unanswered
  have before : log.findSome? _ = Option.none := none
  rw [World.reply, logged, List.findSome?_append, before]
  simp

/-- A property of events that actions do not break. -/
theorem enter_events_meet {φ : Event → Prop} (answers : ∀ c a u, φ (.answered c a u))
    (compares : ∀ c h, φ (.compared c h)) (c : Ctx) (prog : Prog) (σ : Config P)
    (old : ∀ e ∈ σ.world.log, φ e) : ∀ e ∈ (enter (server P) c prog σ).world.log, φ e := by
  induction prog generalizing σ with
  | done => exact old
  | throw => exact old
  | issue s k rest _ ih => exact ih _ old
  | act a k ih =>
    refine ih _ _ ?_
    have sends : ∀ answer user, ∀ e ∈ (σ.world.answer c answer user).2.log, φ e := by
      intro answer user e mem
      unfold World.answer at mem
      split at mem
      · exact old e mem
      · rcases List.mem_append.mp mem with before | new
        · exact old e before
        · rw [List.mem_singleton.mp new]
          exact answers _ _ _
    cases a with
    | send answer user => exact sends answer user
    | sendGathered user => exact sends _ user
    | push entry total => exact old
    | compareSync hash =>
      intro e mem
      rcases List.mem_append.mp mem with before | new
      · exact old e before
      · rw [List.mem_singleton.mp new]
        exact compares _ _

end Replies

namespace Page

section Moves

variable {sid i j : Nat} {env : Request} {p : Page P}

theorem deliver_cases (sid i : Nat) (env : Request) (p : Page P) :
    p.deliver sid i env = p ∨ ∃ tag post, p.sent[i]? = some (tag, post) ∧
      p.deliver sid i env = { p with
        backend := step (server P) (.arrive (post.request sid env)) p.backend
        sent := p.sent.eraseIdx i
        served := p.served ++ [⟨tag, p.backend.world.nextReq, post⟩] } := by
  unfold deliver
  split
  · exact Or.inr ⟨_, _, by assumption, rfl⟩
  · exact Or.inl rfl

theorem receive_cases (j : Nat) (p : Page P) :
    p.receive j = p ∨ ∃ s answer, p.served[j]? = some s ∧
      p.backend.world.reply s.rid = some answer ∧
      ((∃ data, answer = .json data ∧ p.receive j = { p with
          feed := (p.feed.answered s.post.call data).1
          sent := p.sent ++ (p.feed.answered s.post.call data).2.map (p.clicks.length, ·)
          served := p.served.eraseIdx j
          received := p.received ++ [⟨p.clicks.length, s.post, data⟩] }) ∨
        (∀ data, answer ≠ .json data) ∧
          p.receive j = { p with served := p.served.eraseIdx j }) := by
  unfold receive
  split
  · rename_i s found
    split
    · exact Or.inr ⟨s, _, found, by assumption, Or.inl ⟨_, rfl, rfl⟩⟩
    · rename_i answer other replies
      exact Or.inr ⟨s, answer, found, replies, Or.inr ⟨other, rfl⟩⟩
    · exact Or.inl rfl
  · exact Or.inl rfl

theorem Linked.backend (linked : p.Linked) (l : Label P) :
    Linked { p with backend := step (server P) l p.backend } :=
  ⟨step_fresh l _ linked.fresh, fun s mem =>
    Nat.lt_of_lt_of_le (linked.served s mem) (step_nextReq l p.backend)⟩

theorem Linked.move (linked : p.Linked) (sid : Nat) (m : Move) : (p.move sid m).Linked := by
  cases m with
  | click m => exact ⟨linked.fresh, linked.served⟩
  | serve i lost => exact linked.backend (.settle i lost)
  | deliver i env =>
    simp only [Page.move]
    rcases deliver_cases sid i env p with same | ⟨tag, post, -, moved⟩
    · rw [same]
      exact linked
    · rw [moved]
      have arrived := linked.backend (.arrive (post.request sid env))
      refine ⟨arrived.fresh, fun s mem => ?_⟩
      rcases List.mem_append.mp mem with old | new
      · exact arrived.served s old
      · rw [List.mem_singleton.mp new]
        dsimp only
        rw [arrive_eq, enter_nextReq]
        exact Nat.lt_succ_self _
  | receive j =>
    simp only [Page.move]
    rcases receive_cases j p with same | ⟨s, answer, -, -, ⟨data, -, moved⟩ | ⟨-, moved⟩⟩
    · rw [same]
      exact linked
    · rw [moved]
      exact ⟨linked.fresh, fun s mem => linked.served s (List.mem_of_mem_eraseIdx mem)⟩
    · rw [moved]
      exact ⟨linked.fresh, fun s mem => linked.served s (List.mem_of_mem_eraseIdx mem)⟩

end Moves

theorem opened_linked (feed : Feed) (db : Database P.collate)
    (store : Nat → Option SessionUser) : (opened feed db store).Linked :=
  ⟨⟨fun _ mem => absurd mem List.not_mem_nil, fun _ _ => rfl,
    fun _ mem => absurd mem List.not_mem_nil⟩, fun _ mem => absurd mem List.not_mem_nil⟩

/-- Requests are told apart by the click that posted them, and at the server by their numbers. -/
structure Numbered (p : Page P) : Prop extends p.Linked where
  tags : (p.sent.map Prod.fst ++ p.served.map Served.tag).Nodup
  old : ∀ t ∈ p.sent.map Prod.fst ++ p.served.map Served.tag, t < p.clicks.length
  rids : (p.served.map Served.rid).Nodup

section Numbered

variable {p : Page P}

theorem opened_numbered (feed : Feed) (db : Database P.collate)
    (store : Nat → Option SessionUser) : (opened feed db store).Numbered where
  toLinked := opened_linked feed db store
  tags := List.nodup_nil
  old _ mem := absurd mem List.not_mem_nil
  rids := List.nodup_nil

/-- A click that posts one request at most. -/
theorem Numbered.click (numbered : p.Numbered) {m : Click} (one : (p.feed.click m).2.length ≤ 1) :
    (p.click m).Numbered where
  toLinked := ⟨numbered.fresh, numbered.toLinked.served⟩
  tags := by
    have fresh : p.clicks.length ∉ p.sent.map Prod.fst ++ p.served.map Served.tag :=
      fun mem => Nat.lt_irrefl _ (numbered.old _ mem)
    simp only [Page.click, List.map_append, List.map_map]
    cases posts : (p.feed.click m).2 with
    | nil => simpa using numbered.tags
    | cons post rest =>
      have none : rest = [] := by
        rw [posts, List.length_cons] at one
        exact List.length_eq_zero_iff.mp (by omega)
      subst none
      have moved : (p.sent.map Prod.fst ++ [p.clicks.length] ++ p.served.map Served.tag).Perm
          (p.clicks.length :: (p.sent.map Prod.fst ++ p.served.map Served.tag)) := by
        rw [List.append_assoc]
        exact List.perm_middle
      exact moved.nodup_iff.mpr (List.nodup_cons.mpr ⟨fresh, numbered.tags⟩)
  old := by
    intro t mem
    have length : (p.click m).clicks.length = p.clicks.length + 1 := by simp [Page.click]
    rw [length]
    simp only [Page.click, List.map_append, List.mem_append] at mem
    rcases mem with (sent | new) | served
    · exact Nat.lt_succ_of_lt (numbered.old t (List.mem_append_left _ sent))
    · obtain ⟨x, posted, rfl⟩ := List.mem_map.mp new
      obtain ⟨post, -, rfl⟩ := List.mem_map.mp posted
      exact Nat.lt_succ_self _
    · exact Nat.lt_succ_of_lt (numbered.old t (List.mem_append_right _ served))
  rids := numbered.rids

/-- Whatever the server does. -/
theorem Numbered.backend (numbered : p.Numbered) (l : Label P) :
    Numbered { p with backend := step (server P) l p.backend } :=
  { numbered with toLinked := numbered.toLinked.backend l }

theorem Numbered.deliver (numbered : p.Numbered) (sid i : Nat) (env : Request) :
    (p.deliver sid i env).Numbered := by
  have linked := numbered.toLinked.move sid (.deliver i env)
  simp only [Page.move] at linked
  rcases deliver_cases sid i env p with same | ⟨tag, post, waits, moved⟩
  · rw [same]
    exact numbered
  rw [moved] at linked ⊢
  have perm : ((p.sent.eraseIdx i).map Prod.fst ++ (p.served ++
      [Served.mk tag p.backend.world.nextReq post]).map Served.tag).Perm
        (p.sent.map Prod.fst ++ p.served.map Served.tag) := by
    obtain ⟨lt, found⟩ := List.getElem?_eq_some_iff.mp waits
    have moved := (List.getElem_cons_eraseIdx_perm lt).map Prod.fst
    rw [found, List.map_cons] at moved
    rw [List.map_append, ← List.append_assoc]
    refine List.Perm.trans ?_ (moved.append_right _)
    exact List.perm_append_singleton tag _
  exact
    { toLinked := linked
      tags := perm.nodup_iff.mpr numbered.tags
      old := fun t mem => numbered.old t (perm.mem_iff.mp mem)
      rids := by
        rw [List.map_append, List.map_cons, List.map_nil]
        refine List.nodup_append.mpr ⟨numbered.rids, List.nodup_singleton _, ?_⟩
        rintro _ mem _ new rfl
        obtain ⟨s, served, same⟩ := List.mem_map.mp mem
        have known := numbered.served s served
        rw [same, List.mem_singleton.mp new] at known
        exact Nat.lt_irrefl _ known }

/-- An answer whose callback posts nothing. -/
theorem Numbered.receive (numbered : p.Numbered) (j : Nat)
    (silent : ∀ s ∈ p.served, ∀ data, (p.feed.answered s.post.call data).2 = []) :
    (p.receive j).Numbered := by
  have linked := numbered.toLinked.move 0 (.receive j)
  simp only [Page.move] at linked
  have rest : (p.sent.map Prod.fst ++ (p.served.eraseIdx j).map Served.tag).Sublist
      (p.sent.map Prod.fst ++ p.served.map Served.tag) :=
    (List.Sublist.refl _).append ((List.eraseIdx_sublist p.served j).map _)
  have rids := numbered.rids.sublist ((List.eraseIdx_sublist p.served j).map _)
  rcases receive_cases j p with same | ⟨s, answer, waits, -, ⟨data, -, moved⟩ | ⟨-, moved⟩⟩
  · rw [same]
    exact numbered
  · rw [moved, silent s (List.mem_of_getElem? waits) data, List.map_nil, List.append_nil]
      at linked ⊢
    exact ⟨linked, numbered.tags.sublist rest, fun t mem => numbered.old t (rest.subset mem), rids⟩
  · rw [moved] at linked ⊢
    exact ⟨linked, numbered.tags.sublist rest, fun t mem => numbered.old t (rest.subset mem), rids⟩

/-- A request that has arrived is the only one of its click. -/
theorem Numbered.eq_of_tag (numbered : p.Numbered) {s s' : Served} (mem : s ∈ p.served)
    (mem' : s' ∈ p.served) (same : s'.tag = s.tag) : s' = s :=
  List.inj_on_of_nodup_map (List.nodup_append.mp numbered.tags).2.1 mem' mem same

theorem Numbered.eq_of_rid (numbered : p.Numbered) {s s' : Served} (mem : s ∈ p.served)
    (mem' : s' ∈ p.served) (same : s'.rid = s.rid) : s' = s :=
  List.inj_on_of_nodup_map numbered.rids mem' mem same

/-- A request that has arrived is not on its way. -/
theorem Numbered.not_sent (numbered : p.Numbered) {s : Served} (mem : s ∈ p.served) :
    s.tag ∉ p.sent.map Prod.fst := fun sent =>
  (List.nodup_append.mp numbered.tags).2.2 s.tag sent s.tag (List.mem_map_of_mem mem) rfl

/-- No other request of its click stays behind when it is answered. -/
theorem Numbered.gone (numbered : p.Numbered) {j : Nat} {s : Served}
    (here : p.served[j]? = some s) : s.tag ∉ (p.served.eraseIdx j).map Served.tag := by
  obtain ⟨lt, found⟩ := List.getElem?_eq_some_iff.mp here
  have perm := (List.getElem_cons_eraseIdx_perm lt).map Served.tag
  rw [found, List.map_cons] at perm
  exact (List.nodup_cons.mp (perm.nodup_iff.mpr (List.nodup_append.mp numbered.tags).2.1)).1

end Numbered

end Page

end OneRoof
