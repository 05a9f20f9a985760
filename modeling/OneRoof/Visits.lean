import OneRoof.Census
import OneRoof.Listings

/-!
# Whose profile a session visits

The page with the profile of a housemate is for the email that the session remembers, and a
session remembers only what one of its own requests to load a profile has asked for. So the
page shows the first account with that email, and its groups are those that this account was
in.
-/

namespace OneRoof

open Sql Async Async.Prog Prog

variable {P : Platform}

/-- A request of this session and this user has asked for the profile, and was answered. -/
def AskedFor (log : List Event) (sid : Nat) (u : SessionUser) : Prop :=
  ∃ c u₀ answer user, .answered c answer user ∈ log ∧ c.req.sid = sid ∧
    c.req.route = .loadProfile ∧ c.user = some u₀ ∧ u₀.user_id = u.user_id ∧
    u.requestedProfile = c.req.body.get "loadEmail"

/-- Nobody is visited, or somebody that the session has asked for. -/
def Visited (log : List Event) (sid : Nat) (u : SessionUser) : Prop :=
  u.requestedProfile = .undefined ∨ AskedFor log sid u

theorem Visited.later {log log' : List Event} {sid : Nat} {u : SessionUser}
    (visited : Visited log sid u) (le : log <+: log') : Visited log' sid u :=
  visited.imp_right fun ⟨c, u₀, answer, user, logged, asks⟩ =>
    ⟨c, u₀, answer, user, le.subset logged, asks⟩

/-- What becomes of the visit when a user is saved. -/
def Ctx.KeepsVisit (c : Ctx) (user : Option SessionUser) : Prop :=
  ∀ u', user = some u' → u'.requestedProfile = .undefined ∨ ∃ u, c.user = some u ∧
    u'.user_id = u.user_id ∧ (u'.requestedProfile = u.requestedProfile ∨
      c.req.route = .loadProfile ∧ u'.requestedProfile = c.req.body.get "loadEmail")

def Act.KeepsVisit (c : Ctx) : Act → Prop
  | .send _ user => c.KeepsVisit user
  | .sendGathered user => c.KeepsVisit user
  | .compareSync _ => True
  | .push _ _ => True

theorem Ctx.KeepsPlace.visit {c : Ctx} {user : Option SessionUser} (keeps : c.KeepsPlace user) :
    c.KeepsVisit user := by
  intro u' hu'
  rcases keeps u' hu' with ⟨-, visit⟩ | ⟨u, hu, stays⟩
  · exact Or.inl visit
  · exact Or.inr ⟨u, hu, stays.user_id, stays.requestedProfile⟩

theorem Act.KeepsPlace.visit {c : Ctx} {a : Act} (keeps : a.KeepsPlace c) : a.KeepsVisit c := by
  cases a with
  | send answer user => exact Ctx.KeepsPlace.visit keeps
  | sendGathered user => exact Ctx.KeepsPlace.visit keeps.2
  | compareSync hash => trivial
  | push entry total => trivial

/-- Every session visits somebody it has asked for. -/
def Visits (w : World P) : Prop := ∀ sid u, w.store sid = some u → Visited w.log sid u

/-- What an action may save while the user of its session has this visit. -/
def Act.SavesVisit (c : Ctx) (w : World P) (a : Act) : Prop :=
  a.KeepsVisit c ∧ ∀ u, c.user = some u → Visited w.log c.req.sid u

theorem Visits.log {w : World P} (good : Visits w) (e : Event) :
    Visits { w with log := w.log ++ [e] } :=
  fun sid u hu => (good sid u hu).later (List.prefix_append _ _)

theorem Visits.answer {w : World P} {c : Ctx} (good : Visits w) {answer : Answer}
    {user : Option SessionUser} (keeps : c.KeepsVisit user)
    (known : ∀ u, c.user = some u → Visited w.log c.req.sid u) :
    Visits (w.answer c answer user).2 := by
  unfold World.answer
  split
  · exact good
  intro sid u' hu'
  simp only [Function.update_apply] at hu'
  split at hu'
  · rename_i own
    subst own
    rcases keeps u' hu' with nobody | ⟨u, hu, same, visit | ⟨route, visit⟩⟩
    · exact Or.inl nobody
    · have before : Visited w.log c.req.sid u' := by
        rw [Visited, AskedFor, same, visit]
        exact known u hu
      exact before.later (List.prefix_append _ _)
    · exact Or.inr ⟨c, u, answer, user, List.mem_append_right _ (List.mem_singleton_self _), rfl,
        route, hu, same.symm, visit⟩
  · exact (good sid u' hu').later (List.prefix_append _ _)

/-- Sessions visit whom their own requests have asked for. -/
def visiting (P : Platform) : Discipline (server P) where
  Good := Visits
  Le w w' := w.log <+: w'.log
  Allowed _ _ _ := True
  Permit c a w := a.SavesVisit c w
  refl := log_refl
  trans := log_trans
  mono _ _ := trivial
  exec_good := by
    intro c s w r w' good _ he
    obtain ⟨⟨r', db⟩, -, hw⟩ := Option.map_eq_some_iff.mp he
    cases hw
    exact ⟨good.log _, List.prefix_append _ _⟩
  refuse_good good := ⟨good.log _, List.prefix_append _ _⟩
  perform_good := by
    intro c a w good saves
    refine ⟨?_, log_perform c a w⟩
    cases a with
    | send answer user => exact good.answer saves.1 saves.2
    | sendGathered user => exact good.answer saves.1 saves.2
    | push entry total => exact good
    | compareSync hash => exact good.log _

section Safe

variable {c : Ctx} {w : World P}

theorem keepsVisit_same {u u' : SessionUser} (user : c.user = some u)
    (id : u'.user_id = u.user_id) (visit : u'.requestedProfile = u.requestedProfile) :
    c.KeepsVisit (some u') := by
  rintro v ⟨⟩
  exact Or.inr ⟨u, user, id, Or.inl visit⟩

theorem house_acts : (house c.user).Acts (Act.KeepsVisit c) :=
  attempt_acts fun u user => query_acts <| thenRun_acts fun rows => by
    split
    · exact send_acts (keepsVisit_same user rfl rfl)
    · exact send_acts (keepsVisit_same user rfl rfl)

theorem settings_acts : (settings c.user).Acts (Act.KeepsVisit c) :=
  attempt_acts fun u user => query_acts <| thenRun_acts fun rows => by
    split
    · exact query_acts <| thenRun_acts fun rs => attempt_acts fun h _ =>
        send_acts (keepsVisit_same user rfl rfl)
    · exact send_acts (keepsVisit_same user rfl rfl)

theorem acts_visiting {ψ : Act → Prop} {prog : Prog} (acts : prog.Acts ψ)
    (keeps : ∀ a, ψ a → a.KeepsVisit c) (good : Visits w)
    (known : ∀ u, c.user = some u → Visited w.log c.req.sid u) :
    (visiting P).Safe c prog w :=
  acts_safe (𝒟 := visiting P) (issues_of_forall (φ := fun _ => True) (fun _ => trivial) _) acts
    good (fun _ _ _ _ => trivial) fun a _ le kept =>
      ⟨keeps a kept, fun u hu => (known u hu).later le⟩

theorem route_visiting (good : Visits w)
    (known : ∀ u, c.user = some u → Visited w.log c.req.sid u) :
    (visiting P).Safe c (OneRoof.route P c) w := by
  by_cases house : c.req.route = .house
  · rw [OneRoof.route, house]
    exact acts_visiting house_acts (fun _ keeps => keeps) good known
  by_cases settings : c.req.route = .settings
  · rw [OneRoof.route, settings]
    exact acts_visiting settings_acts (fun _ keeps => keeps) good known
  · exact acts_visiting (route_homely P c house settings).2 (fun _ keeps => keeps.visit) good known

end Safe

theorem own_visiting {l : Label P} (own : Label.own P l) : (visiting P).Admits l := by
  cases l with
  | settle i lost => trivial
  | disturb db => exact absurd own id
  | arrive q =>
    intro w good
    have known : ∀ u, (w.context q).user = some u → Visited w.next.log (w.context q).req.sid u :=
      fun u user => good q.sid u user
    have next : Visits w.next := good
    have safe : (visiting P).Safe (w.context q) (OneRoof.route P (w.context q)) w.next :=
      route_visiting next known
    exact ⟨next, List.prefix_rfl, safe.recover next fun w' le _ =>
      safe_send ⟨fun u user => Or.inr ⟨u, user, rfl, Or.inl rfl⟩,
        fun u user => (known u user).later le⟩⟩

theorem run_visits {ls : List (Label P)} (own : ∀ l ∈ ls, Label.own P l) :
    Visits (run (server P) ls (startUp P)).world :=
  (Discipline.run_holds (𝒟 := visiting P) ls (fun l mem => own_visiting (own l mem)) _
    (Discipline.idle_holds fun _ _ signedIn => by cases signedIn)).1.1

/-- A request was given a visit that its session had asked for. -/
theorem occurs_visited {ls : List (Label P)} (own : ∀ l ∈ ls, Label.own P l) {c : Ctx}
    (occurs : Occurs c (run (server P) ls (startUp P))) {u : SessionUser} (user : c.user = some u) :
    Visited (run (server P) ls (startUp P)).world.log c.req.sid u := by
  obtain ⟨before, q, after, rfl, rfl⟩ := occurs_arrived occurs
  have own' : ∀ l ∈ before, Label.own P l := fun l mem => own l (List.mem_append_left _ mem)
  rw [run_append]
  exact (run_visits own' q.sid u user).later (run_log _ _)

/-- A look-up of a user by an email that is missing does not complete. -/
theorem getUser_given {v : JsVal} {db db' : Database P.collate} {rows : List (Row UserCol)}
    (he : exec P.collate (.getUser v) db = some (rows, db')) : v ≠ .undefined := by
  rintro rfl
  cases he

/-- What was found for a visit, and that the session has asked for it. -/
theorem visit_found {ls : List (Label P)} (plain : ∀ l ∈ ls, PlainLabel P l) {c : Ctx}
    {u : SessionUser} (user : c.user = some u) {rows : List (Row UserCol)}
    (found : .completed c (.getUser u.requestedProfile) rows ∈
      (run (server P) ls (startUp P)).world.log) :
    AskedFor (run (server P) ls (startUp P)).world.log c.req.sid u ∧
      ∃ front, front <+: (run (server P) ls (startUp P)).world.log ∧
        rows = (census front).found P.collate .email u.requestedProfile := by
  have own : ∀ l ∈ ls, Label.own P l := fun l mem => (plain l mem).own
  obtain ⟨⟨db, db', he⟩, -⟩ := completed_of_logged own found
  rcases occurs_visited own (Or.inr ⟨_, found, rfl⟩) user with nobody | asked
  · exact absurd nobody (getUser_given he)
  refine ⟨asked, ?_⟩
  obtain ⟨c', u₀, answer, saved, logged, -, -, -, -, visit⟩ := asked
  have labels : ∀ l ∈ ls, Admissible P Request.Plain l := fun l mem => (plain l mem).admissible
  have scalar : u.requestedProfile.isScalar = true := by
    rw [visit]
    exact (occurs_admitted labels (Or.inr ⟨_, logged, rfl⟩)).body "loadEmail" (by decide)
  obtain ⟨front, rest, split⟩ := List.append_of_mem found
  exact ⟨front, ⟨_, split.symm⟩, census_answered plain split scalar⟩

/-- Ann looks at her own profile as somebody else's. -/
def annLooksUp : List (Label samplePlatform) :=
  annsDay.take 10 ++ [
    .arrive { sid := 0, route := .loadProfile, body := .obj [("loadEmail", .str "ann@x")] },
    .arrive { sid := 0, route := .profile }, .settle 0 false, .settle 0 false]

def Route.shows : Route → Bool
  | .profile => true
  | _ => false

end OneRoof
