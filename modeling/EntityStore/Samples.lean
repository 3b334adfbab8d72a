import EntityStore.Store.Operation

/-!
Three sample tables, and calls on them.

A user has many carts and refers to one contact; a cart refers to its user; a
contact refers to nothing.  All three are identified by the property `id`.
-/

namespace EntityStore.Samples

/-- A field of which nothing but the column is known. -/
def field (property column : String) : Field := ⟨property, column, .unknown⟩

/-- The table of users. -/
def users : Metadata where
  table := "users"
  idProperty := "id"
  fields := [⟨"id", "user_id", .text⟩, field "name" "name", field "city" "city",
    ⟨"age", "age", .integer⟩, field "contactId" "contact_id",
    ⟨"createdAt", "created_at", .timestamp⟩]
  oneToMany := [⟨"carts", "user", "carts"⟩]
  manyToOne := [⟨"contact", "contact_id", "contacts"⟩]
  temporals := [⟨"createdAt", .timestamp⟩]

/-- The table of carts. -/
def carts : Metadata where
  table := "carts"
  idProperty := "id"
  fields := [field "id" "cart_id", field "userId" "user_id", field "name" "name",
    ⟨"total", "total", .integer⟩]
  oneToMany := []
  manyToOne := [⟨"user", "user_id", "users"⟩]
  temporals := []

/-- The table of contacts. -/
def contacts : Metadata where
  table := "contacts"
  idProperty := "id"
  fields := [⟨"id", "contact_id", .text⟩, field "email" "email", field "phone" "phone"]
  oneToMany := []
  manyToOne := []
  temporals := []

/-- All sample tables. -/
def tables : List Metadata := [users, carts, contacts]

/-- A user without an id. -/
def user (name city : String) (age : Int64) : Entity :=
  (((Entity.ofTable "users").set "name" name).set "city" city).set "age" age

/-- A cart of a user, without an id. -/
def cart (userId : Value) (name : String) (total : Int64) : Entity :=
  (((Entity.ofTable "carts").set "userId" userId).set "name" name).set "total" total

/-- A contact without an id. -/
def contact (email : String) : Entity := (Entity.ofTable "contacts").set "email" email

/-- The description of a sample table. -/
def describe (table : String) : Metadata :=
  if table = "users" then users else if table = "carts" then carts else contacts

/-- A user with an id and a reference to a contact. -/
def userOf (id contact : String) : Entity :=
  ((user "Ada" "London" 36).set "id" id).set "contactId" contact

/-- Registers the sample tables, and adds a contact and a user who refers to it. -/
def calls : List Operation :=
  tables.map .register ++
    [.insert contacts ((contact "ada@example.org").set "id" "c1"), .insert users (userOf "u1" "c1")]

end EntityStore.Samples
