import OneRoof.Answers
import OneRoof.Duties
import OneRoof.GroupRegister
import OneRoof.Remarks

/-!
# What the lists on the pages are

The registers of groups, of remarks and of tasks say what a look-up finds, and a page is made
of what the look-ups of its own request have found. So each list that is sent is what the
registers held at a moment while the request was served: the menu of the groups of a house,
the groups of a user, the comments of a task, and, one for each user who is asked for, the
tasks by their status.
-/

namespace OneRoof

open Sql Async Async.Prog Prog

variable {P : Platform}

section Pages

/-- What is in the log stands behind what was there before. -/
theorem front_of_mem {log : List Event} {e : Event} (mem : e ∈ log) :
    ∃ front rest, front <+: log ∧ log = front ++ e :: rest := by
  obtain ⟨front, rest, split⟩ := List.append_of_mem mem
  exact ⟨front, rest, ⟨_, split.symm⟩, split⟩

section Lists

variable {ls : List (Label P)} {c : Ctx} {v : JsVal} {user : Option SessionUser}

/-- The menu of the groups of a house. -/
theorem menu_listed (names : ∀ l ∈ ls, Admissible P Request.NamesMembers l)
    (answered : .answered c (.json v) user ∈ (run (server P) ls (startUp P)).world.log)
    (route : c.req.route = .getGroups) : ∃ u rows front, c.user = some u ∧
      front <+: (run (server P) ls (startUp P)).world.log ∧ v = houseGroupsJs rows ∧
      ReadsGroups (residences front) (groupBook front) (.getHouseGroups u.houseID) rows := by
  have made := (run_pagesMade fun l mem => (names l mem).own).sent c v user answered
  simp only [MadeOf, route] at made
  obtain ⟨u, rows, user, found, page⟩ := made
  obtain ⟨front, rest, le, split⟩ := front_of_mem found
  exact ⟨u, rows, front, user, le, page, groups_answered names split⟩

/-- The comments of a task. -/
theorem comments_listed (plain : ∀ l ∈ ls, PlainLabel P l)
    (answered : .answered c (.json v) user ∈ (run (server P) ls (startUp P)).world.log)
    (route : c.req.route = .getComment) :
    ∃ front, front <+: (run (server P) ls (startUp P)).world.log ∧
      v = rowsJs ((under P.collate (c.req.body.get "task_id") (remarks P front)).map
        Remark.row) := by
  have made := (run_pagesMade fun l mem => (plain l mem).own).sent c v user answered
  simp only [MadeOf, route] at made
  obtain ⟨rows, found, page⟩ := made
  obtain ⟨front, rest, le, split⟩ := front_of_mem found
  have labels : ∀ l ∈ ls, Admissible P Request.Plain l :=
    fun l mem => (plain l mem).admissible
  have asked := occurs_admitted labels (Or.inr ⟨_, found, rfl⟩)
  rw [remarks_answered plain (asked.body "task_id" (by decide)) split] at page
  exact ⟨front, le, page⟩

end Lists

/-- A list of the tasks of somebody the request asks for, by their status, as the registers
were at one moment. -/
def ShowsTodo (P : Platform) (log : List Event) (q : Request) (entry : JsVal) : Prop :=
  ∃ email status front rows, AsksTasks q email status ∧ front <+: log ∧ entry = taskRowsJs rows ∧
    rows.map listing = (todo P.collate (directory front) (bookOf P front) email status).map
      fun x => (.int x.1, .text x.2)

/-- An email that is asked for, and the status, are scalars. -/
theorem AsksTasks.scalars {q : Request} (tidy : q.Tidy) {email status : JsVal}
    (asks : AsksTasks q email status) : email.isScalar = true ∧ status.isScalar = true := by
  obtain ⟨items, item, users, listed, asked⟩ := asks
  obtain ⟨-, -, asked⟩ := Option.bind_eq_some_iff.mp asked
  obtain ⟨email', given, asked⟩ := Option.bind_eq_some_iff.mp asked
  obtain ⟨-, -, asked⟩ := Option.bind_eq_some_iff.mp asked
  obtain ⟨-, -, asked⟩ := Option.bind_eq_some_iff.mp asked
  cases asked
  refine ⟨?_, tidy.plain.body "status" (by decide)⟩
  exact tidy.emails ⟨items, false⟩ (by rw [users]; rfl) item listed email given

/-- The lists of tasks in an answer, each as the registers were when it was looked up. -/
theorem todo_listed {ls : List (Label P)} (tidy : ∀ l ∈ ls, Admissible P Request.Tidy l) {c : Ctx}
    {v : JsVal} {user : Option SessionUser}
    (answered : .answered c (.json v) user ∈ (run (server P) ls (startUp P)).world.log)
    (route : c.req.route = .tasks) :
    ∃ items entries, c.req.body.get "users" = .arr items ∧ v = .arr entries ∧
      entries.length = items.length ∧
      ∀ entry ∈ entries, ShowsTodo P (run (server P) ls (startUp P)).world.log c.req entry := by
  have made := (run_pagesMade fun l mem => (tidy l mem).own).sent c v user answered
  simp only [MadeOf, route] at made
  obtain ⟨items, entries, users, page, length, lists⟩ := made
  refine ⟨items, entries, users, page, length, fun entry mem => ?_⟩
  obtain ⟨c', email, status, rows, number, asks, found, shows⟩ := lists entry mem
  have own : c' = c := run_told ls c' c (Or.inr ⟨_, found, rfl⟩) (Or.inr ⟨_, answered, rfl⟩) number
  subst own
  obtain ⟨front, rest, le, split⟩ := front_of_mem found
  exact ⟨email, status, front, rows, asks, le, shows,
    todo_answered tidy (asks.scalars (occurs_admitted tidy (Or.inr ⟨_, found, rfl⟩))) split⟩

end Pages

def Route.listsGroups : Route → Bool
  | .getGroups => true
  | _ => false

def Route.gathers : Route → Bool
  | .tasks => true
  | _ => false

end OneRoof
