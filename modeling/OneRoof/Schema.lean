import OneRoof.Lib.Sql

/-!
# The tables

The ten tables of `database_creation.sql` with their column types, keys and
foreign keys. A database is a set of tables that respects all of them, so every
state a statement can leave is one. What an `AUTO_INCREMENT` column gives out
next is kept beside the tables.
-/

namespace OneRoof

open Sql

inductive UserCol where
  | user_id | displayName | facebook_id | facebook_name | facebook_email | facebook_token
  | payment_method | payment_username | hash_pass | phone_num | email | user_pic
  deriving DecidableEq, Repr

inductive HouseCol where
  | house_id | house_name | rent_total | house_code
  deriving DecidableEq, Repr

inductive HouseUserCol where
  | house_user_id | house_id | user_id
  deriving DecidableEq, Repr

inductive GroupCol where
  | group_id | group_name | group_descr
  deriving DecidableEq, Repr

inductive UserGroupCol where
  | user_group_id | user_id | group_id
  deriving DecidableEq, Repr

inductive TaskCol where
  | task_id | task_name | task_descr | task_time | task_type | task_status
  | task_due_date | task_archived_date
  deriving DecidableEq, Repr

inductive BillCol where
  | task_id | bill_amount
  deriving DecidableEq, Repr

inductive ChoreCol where
  | task_id | priority
  deriving DecidableEq, Repr

inductive UserTaskCol where
  | user_task_id | task_id | task_owner_id | task_creator_id
  deriving DecidableEq, Repr

inductive CommentCol where
  | comment_id | comment_descr | comment_time | comment_owner_id | task_id
  deriving DecidableEq, Repr

instance : Columns UserCol where
  all := [.user_id, .displayName, .facebook_id, .facebook_name, .facebook_email,
    .facebook_token, .payment_method, .payment_username, .hash_pass, .phone_num, .email,
    .user_pic]
  name
    | .user_id => "user_id" | .displayName => "displayName"
    | .facebook_id => "facebook_id" | .facebook_name => "facebook_name"
    | .facebook_email => "facebook_email" | .facebook_token => "facebook_token"
    | .payment_method => "payment_method" | .payment_username => "payment_username"
    | .hash_pass => "hash_pass" | .phone_num => "phone_num" | .email => "email"
    | .user_pic => "user_pic"
  type
    | .user_id => .int | .displayName => .varchar 60 | .phone_num => .varchar 10
    | .email => .varchar 60 | .user_pic => .varchar 150 | _ => .varchar 64
  nullable
    | .user_id => false | .displayName => false | _ => true
  mem_all := by intro c; cases c <;> simp

instance : Columns HouseCol where
  all := [.house_id, .house_name, .rent_total, .house_code]
  name
    | .house_id => "house_id" | .house_name => "house_name" | .rent_total => "rent_total"
    | .house_code => "house_code"
  type
    | .house_id => .int | .rent_total => .int | _ => .varchar 30
  nullable
    | .rent_total => true | _ => false
  mem_all := by intro c; cases c <;> simp

instance : Columns HouseUserCol where
  all := [.house_user_id, .house_id, .user_id]
  name
    | .house_user_id => "house_user_id" | .house_id => "house_id" | .user_id => "user_id"
  type _ := .int
  nullable _ := false
  mem_all := by intro c; cases c <;> simp

instance : Columns GroupCol where
  all := [.group_id, .group_name, .group_descr]
  name
    | .group_id => "group_id" | .group_name => "group_name" | .group_descr => "group_descr"
  type
    | .group_id => .int | .group_name => .varchar 30 | .group_descr => .varchar 50
  nullable _ := false
  mem_all := by intro c; cases c <;> simp

instance : Columns UserGroupCol where
  all := [.user_group_id, .user_id, .group_id]
  name
    | .user_group_id => "user_group_id" | .user_id => "user_id" | .group_id => "group_id"
  type _ := .int
  nullable _ := false
  mem_all := by intro c; cases c <;> simp

instance : Columns TaskCol where
  all := [.task_id, .task_name, .task_descr, .task_time, .task_type, .task_status,
    .task_due_date, .task_archived_date]
  name
    | .task_id => "task_id" | .task_name => "task_name" | .task_descr => "task_descr"
    | .task_time => "task_time" | .task_type => "task_type" | .task_status => "task_status"
    | .task_due_date => "task_due_date" | .task_archived_date => "task_archived_date"
  type
    | .task_id => .varchar 100 | .task_name => .varchar 30 | .task_descr => .varchar 500
    | .task_time => .varchar 60 | .task_type => .varchar 30 | .task_status => .varchar 30
    | .task_due_date => .varchar 60 | .task_archived_date => .varchar 60
  nullable
    | .task_descr => true | .task_archived_date => true | _ => false
  mem_all := by intro c; cases c <;> simp

instance : Columns BillCol where
  all := [.task_id, .bill_amount]
  name
    | .task_id => "task_id" | .bill_amount => "bill_amount"
  type
    | .task_id => .varchar 100 | .bill_amount => .int
  nullable _ := false
  mem_all := by intro c; cases c <;> simp

instance : Columns ChoreCol where
  all := [.task_id, .priority]
  name
    | .task_id => "task_id" | .priority => "priority"
  type
    | .task_id => .varchar 100 | .priority => .varchar 30
  nullable _ := false
  mem_all := by intro c; cases c <;> simp

instance : Columns UserTaskCol where
  all := [.user_task_id, .task_id, .task_owner_id, .task_creator_id]
  name
    | .user_task_id => "user_task_id" | .task_id => "task_id"
    | .task_owner_id => "task_owner_id" | .task_creator_id => "task_creator_id"
  type
    | .task_id => .varchar 100 | _ => .int
  nullable _ := false
  mem_all := by intro c; cases c <;> simp

instance : Columns CommentCol where
  all := [.comment_id, .comment_descr, .comment_time, .comment_owner_id, .task_id]
  name
    | .comment_id => "comment_id" | .comment_descr => "comment_descr"
    | .comment_time => "comment_time" | .comment_owner_id => "comment_owner_id"
    | .task_id => "task_id"
  type
    | .comment_id => .int | .comment_descr => .varchar 3000 | .comment_time => .timestamp
    | .comment_owner_id => .int | .task_id => .varchar 100
  nullable _ := false
  mem_all := by intro c; cases c <;> simp

structure Tables where
  user : List (Row UserCol)
  house : List (Row HouseCol)
  houseUser : List (Row HouseUserCol)
  group : List (Row GroupCol)
  userGroups : List (Row UserGroupCol)
  task : List (Row TaskCol)
  bill : List (Row BillCol)
  chore : List (Row ChoreCol)
  userTask : List (Row UserTaskCol)
  comment : List (Row CommentCol)
  deriving DecidableEq

/-- The next value of each `AUTO_INCREMENT` column. -/
structure Counters where
  user : Nat
  house : Nat
  houseUser : Nat
  group : Nat
  userGroups : Nat
  userTask : Nat
  comment : Nat
  deriving DecidableEq

/-- Column types, primary keys and foreign keys of the schema. -/
structure Integrity (collate : String → String) (t : Tables) : Prop where
  user_typed : Typed t.user
  house_typed : Typed t.house
  houseUser_typed : Typed t.houseUser
  group_typed : Typed t.group
  userGroups_typed : Typed t.userGroups
  task_typed : Typed t.task
  bill_typed : Typed t.bill
  chore_typed : Typed t.chore
  userTask_typed : Typed t.userTask
  comment_typed : Typed t.comment
  user_key : Keyed collate .user_id t.user
  house_key : Keyed collate .house_id t.house
  houseUser_key : Keyed collate .house_user_id t.houseUser
  group_key : Keyed collate .group_id t.group
  userGroups_key : Keyed collate .user_group_id t.userGroups
  task_key : Keyed collate .task_id t.task
  bill_key : Keyed collate .task_id t.bill
  chore_key : Keyed collate .task_id t.chore
  userTask_key : Keyed collate .user_task_id t.userTask
  comment_key : Keyed collate .comment_id t.comment
  houseUser_house : Refers collate .house_id HouseCol.house_id t.houseUser t.house
  houseUser_user : Refers collate .user_id UserCol.user_id t.houseUser t.user
  userGroups_user : Refers collate .user_id UserCol.user_id t.userGroups t.user
  userGroups_group : Refers collate .group_id GroupCol.group_id t.userGroups t.group
  bill_task : Refers collate .task_id TaskCol.task_id t.bill t.task
  chore_task : Refers collate .task_id TaskCol.task_id t.chore t.task
  userTask_task : Refers collate .task_id TaskCol.task_id t.userTask t.task
  userTask_owner : Refers collate .task_owner_id UserCol.user_id t.userTask t.user
  userTask_creator : Refers collate .task_creator_id UserCol.user_id t.userTask t.user
  comment_owner : Refers collate .comment_owner_id UserCol.user_id t.comment t.user

theorem integrity_iff (collate : String → String) (t : Tables) :
    Integrity collate t ↔
      (Typed t.user ∧ Typed t.house ∧ Typed t.houseUser ∧ Typed t.group ∧
        Typed t.userGroups ∧ Typed t.task ∧ Typed t.bill ∧ Typed t.chore ∧
        Typed t.userTask ∧ Typed t.comment) ∧
      (Keyed collate .user_id t.user ∧ Keyed collate .house_id t.house ∧
        Keyed collate .house_user_id t.houseUser ∧ Keyed collate .group_id t.group ∧
        Keyed collate .user_group_id t.userGroups ∧ Keyed collate .task_id t.task ∧
        Keyed collate .task_id t.bill ∧ Keyed collate .task_id t.chore ∧
        Keyed collate .user_task_id t.userTask ∧ Keyed collate .comment_id t.comment) ∧
      (Refers collate .house_id HouseCol.house_id t.houseUser t.house ∧
        Refers collate .user_id UserCol.user_id t.houseUser t.user ∧
        Refers collate .user_id UserCol.user_id t.userGroups t.user ∧
        Refers collate .group_id GroupCol.group_id t.userGroups t.group ∧
        Refers collate .task_id TaskCol.task_id t.bill t.task ∧
        Refers collate .task_id TaskCol.task_id t.chore t.task ∧
        Refers collate .task_id TaskCol.task_id t.userTask t.task ∧
        Refers collate .task_owner_id UserCol.user_id t.userTask t.user ∧
        Refers collate .task_creator_id UserCol.user_id t.userTask t.user ∧
        Refers collate .comment_owner_id UserCol.user_id t.comment t.user) := by
  constructor
  · rintro ⟨a1, a2, a3, a4, a5, a6, a7, a8, a9, a10, b1, b2, b3, b4, b5, b6, b7, b8, b9, b10,
      c1, c2, c3, c4, c5, c6, c7, c8, c9, c10⟩
    exact ⟨⟨a1, a2, a3, a4, a5, a6, a7, a8, a9, a10⟩, ⟨b1, b2, b3, b4, b5, b6, b7, b8, b9, b10⟩,
      c1, c2, c3, c4, c5, c6, c7, c8, c9, c10⟩
  · rintro ⟨⟨a1, a2, a3, a4, a5, a6, a7, a8, a9, a10⟩, ⟨b1, b2, b3, b4, b5, b6, b7, b8, b9, b10⟩,
      c1, c2, c3, c4, c5, c6, c7, c8, c9, c10⟩
    exact ⟨a1, a2, a3, a4, a5, a6, a7, a8, a9, a10, b1, b2, b3, b4, b5, b6, b7, b8, b9, b10,
      c1, c2, c3, c4, c5, c6, c7, c8, c9, c10⟩

instance (collate : String → String) (t : Tables) : Decidable (Integrity collate t) :=
  decidable_of_iff' _ (integrity_iff collate t)

/-- Tables that respect the schema, under a collation. -/
structure Database (collate : String → String) where
  tables : Tables
  next : Counters
  sound : Integrity collate tables

theorem Database.ext {collate : String → String} {db db' : Database collate}
    (ht : db.tables = db'.tables) (hn : db.next = db'.next) : db = db' := by
  cases db
  cases db'
  cases ht
  cases hn
  rfl

/-- A statement takes effect as a whole or, when a constraint is broken, not. -/
def commit (collate : String → String) (t : Tables) (n : Counters) :
    Option (Database collate) :=
  if h : Integrity collate t then some ⟨t, n, h⟩ else none

theorem commit_eq_some {collate : String → String} {t : Tables} {n : Counters}
    {db : Database collate} (h : commit collate t n = some db) :
    db.tables = t ∧ db.next = n := by
  unfold commit at h
  split at h
  · cases h
    exact ⟨rfl, rfl⟩
  · cases h

theorem commit_of_sound {collate : String → String} {t : Tables} (n : Counters)
    (h : Integrity collate t) : commit collate t n = some ⟨t, n, h⟩ :=
  dif_pos h

def noTables : Tables := ⟨[], [], [], [], [], [], [], [], [], []⟩

/-- The database `database_creation.sql` leaves behind. -/
def emptyDatabase (collate : String → String) : Database collate where
  tables := noTables
  next := ⟨1, 1, 1, 1, 1, 1, 1⟩
  sound := by
    rw [integrity_iff]
    simp [noTables]

end OneRoof
