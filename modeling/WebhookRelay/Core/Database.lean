import WebhookRelay.Foundation.Transaction
import WebhookRelay.Core.Json

/-!
# The schema at start-up

`init_db` of `app/core/database.py`: the tables of the models, and then nine
statements for databases that are older than the models, all in one
transaction of `engine.begin()`. The error of a statement is caught and
ignored; what Postgres makes of the transaction after it is `Transaction`.
-/

namespace WebhookRelay.Startup

open Foundation

/-- The parts of a schema that `IF NOT EXISTS` asks for. -/
@[ext] structure Schema where
  tables : List String := []
  /-- Table and column. -/
  columns : List (String × String) := []
  indexes : List String := []
  deriving DecidableEq

/-- Tables and indexes share their names. -/
def Schema.relations (schema : Schema) : List String := schema.tables ++ schema.indexes

def Schema.size (schema : Schema) : ℕ :=
  schema.tables.length + schema.columns.length + schema.indexes.length

/-- An `ALTER` or `CREATE` of the list; each has `IF NOT EXISTS`. -/
inductive Statement where
  | addColumn (table column definition : String)
  | createTable (name : String) (columns : List (String × String))
  | createIndex (name table column : String)

def migrations : List Statement := [
  .addColumn "routes" "filter_expression" "TEXT",
  .addColumn "events" "request_headers" "JSONB",
  .addColumn "endpoints" "workspace_id" "UUID REFERENCES workspaces(id)",
  .addColumn "endpoints" "request_body_schema" "TEXT",
  .addColumn "events" "status" "VARCHAR(32) NOT NULL DEFAULT 'pending'",
  .addColumn "events" "retry_at" "TIMESTAMPTZ",
  .createTable "outbox_records" [
    ("id", "UUID PRIMARY KEY"),
    ("event_id", "UUID NOT NULL REFERENCES events(id)"),
    ("status", "VARCHAR(16) NOT NULL DEFAULT 'pending'"),
    ("publish_key", "VARCHAR(255) NOT NULL"),
    ("publish_topic", "VARCHAR(255) NOT NULL"),
    ("attempts", "INTEGER NOT NULL DEFAULT 0"),
    ("last_error", "TEXT"),
    ("created_at", "TIMESTAMPTZ NOT NULL DEFAULT now()"),
    ("processed_at", "TIMESTAMPTZ")],
  .createIndex "ix_outbox_records_status" "outbox_records" "status",
  .createIndex "ix_outbox_records_event_id" "outbox_records" "event_id"]

structure ModelTable where
  name : String
  columns : List String
  indexes : List String := []

/-- `Base.metadata.sorted_tables`. -/
def metadataTables : List ModelTable := [
  { name := "users"
    columns := ["id", "email", "display_name", "password_hash", "is_active", "created_at",
      "updated_at"]
    indexes := ["ix_users_email"] },
  { name := "workspaces"
    columns := ["id", "name", "slug", "created_at", "updated_at"]
    indexes := ["ix_workspaces_slug"] },
  { name := "endpoints"
    columns := ["id", "workspace_id", "name", "hmac_secret", "is_active", "rate_limit_rps",
      "ip_allowlist", "request_body_schema", "created_at", "updated_at"] },
  { name := "workspace_memberships"
    columns := ["user_id", "workspace_id", "role", "joined_at"] },
  { name := "events"
    columns := ["id", "endpoint_id", "idempotency_key", "request_body", "request_headers",
      "status", "retry_at", "received_at", "is_discarded", "discarded_at"]
    indexes := ["ix_events_endpoint_id", "ix_events_received_at", "ix_events_status"] },
  { name := "routes"
    columns := ["id", "endpoint_id", "name", "url", "method", "headers", "transform_pipeline",
      "rate_limit_rpm", "timeout_ms", "max_retries", "retry_backoff_ms", "is_active",
      "filter_expression", "created_at"] },
  { name := "delivery_attempts"
    columns := ["id", "event_id", "route_id", "attempt_number", "request_url", "request_body",
      "response_status", "response_body", "error", "duration_ms", "attempted_at"]
    indexes := ["ix_delivery_attempts_event_id"] },
  { name := "outbox_records"
    columns := ["id", "event_id", "status", "publish_key", "publish_topic", "attempts",
      "last_error", "created_at", "processed_at"]
    indexes := ["ix_outbox_records_event_id", "ix_outbox_records_status"] }]

/-- What Postgres refuses for reasons the schema does not show: a privilege, a
lock that is not granted in time, rows that break a constraint. -/
structure Postgres where
  refusesTable : String → Schema → Option Exc
  refuses : Statement → Schema → Option Exc

def undefinedTable (name : String) : Exc :=
  ⟨"UndefinedTableError", "relation \"" ++ name ++ "\" does not exist"⟩

def undefinedColumn (name : String) : Exc :=
  ⟨"UndefinedColumnError", "column \"" ++ name ++ "\" does not exist"⟩

def duplicateTable (name : String) : Exc :=
  ⟨"DuplicateTableError", "relation \"" ++ name ++ "\" already exists"⟩

def inFailedTransaction : Exc :=
  ⟨"InFailedSQLTransactionError",
    "current transaction is aborted, commands ignored until end of transaction block"⟩

def Statement.effect (schema : Schema) : Statement → Except Exc Schema
  | .addColumn table column _ =>
      if table ∉ schema.tables then .error (undefinedTable table)
      else if (table, column) ∈ schema.columns then .ok schema
      else .ok { schema with columns := schema.columns ++ [(table, column)] }
  | .createTable name columns =>
      if name ∈ schema.relations then .ok schema
      else .ok { schema with
        tables := schema.tables ++ [name]
        columns := schema.columns ++ columns.map (fun c => (name, c.1)) }
  | .createIndex name table column =>
      if table ∉ schema.tables then .error (undefinedTable table)
      else if (table, column) ∉ schema.columns then .error (undefinedColumn column)
      else if name ∈ schema.relations then .ok schema
      else .ok { schema with indexes := schema.indexes ++ [name] }

def Postgres.exec (db : Postgres) (stmt : Statement) (schema : Schema) : Except Exc Schema :=
  match db.refuses stmt schema with
  | some exc => .error exc
  | none => stmt.effect schema

/-- A `CREATE INDEX` of `create_all`, which has no `IF NOT EXISTS`. -/
def createModelIndex (schema : Schema) (name : String) : Except Exc Schema :=
  if name ∈ schema.relations then .error (duplicateTable name)
  else .ok { schema with indexes := schema.indexes ++ [name] }

/-- One table of `create_all` and its indexes; a table that exists is left as
it is. -/
def createModelTable (db : Postgres) (table : ModelTable) (schema : Schema) :
    Except Exc Schema :=
  if table.name ∈ schema.tables then .ok schema
  else
    match db.refusesTable table.name schema with
    | some exc => .error exc
    | none =>
        if table.name ∈ schema.relations then .error (duplicateTable table.name)
        else
          table.indexes.foldlM createModelIndex { schema with
            tables := schema.tables ++ [table.name]
            columns := schema.columns ++ table.columns.map (fun c => (table.name, c)) }

/-- `Base.metadata.create_all`. -/
def createAll (db : Postgres) (schema : Schema) : Except Exc Schema :=
  metadataTables.foldlM (fun schema table => createModelTable db table schema) schema

/-- `try: await conn.execute(text(stmt))`, `except Exception: pass`. -/
def executeIgnoring (db : Postgres) (tx : Transaction Schema) (stmt : Statement) :
    Transaction Schema :=
  match tx.execute inFailedTransaction (db.exec stmt) with
  | (.ok _, tx) => tx
  | (.error _, tx) => tx

/-- What `init_db` returns or raises, and the schema it commits. -/
def initDb (db : Postgres) (schema : Schema) : Except Exc Unit × Schema :=
  match (Transaction.start schema).execute inFailedTransaction (createAll db) with
  | (.error exc, tx) => (.error exc, tx.rollback)
  | (.ok _, tx) => (.ok (), (migrations.foldl (executeIgnoring db) tx).commit)

/-! ## What start-up is for -/

/-- A start-up that returns has committed what `create_all` does and then what
each statement does that does not fail by itself. -/
def IsolatesFailures (db : Postgres) (schema : Schema) : Prop :=
  ∀ created committed, createAll db schema = .ok created →
    initDb db schema = (.ok (), committed) →
    committed = migrations.foldl (fun s stmt => Transaction.alone (db.exec stmt) s) created

/-- What the statement is for is there. -/
def Statement.Present (schema : Schema) : Statement → Prop
  | .addColumn table column _ => (table, column) ∈ schema.columns
  | .createTable name _ => name ∈ schema.relations
  | .createIndex name _ _ => name ∈ schema.relations

/-- There is nothing to do: the tables of the models are there, and so is
what any statement is for that does not fail. -/
structure UpToDate (db : Postgres) (schema : Schema) : Prop where
  tables : ∀ table ∈ metadataTables, table.name ∈ schema.tables
  statements : ∀ stmt ∈ migrations,
    (∃ exc, db.exec stmt schema = .error exc) ∨ stmt.Present schema

/-! ## Statements only add -/

theorem effect_eq_self_iff {stmt : Statement} {schema : Schema} :
    stmt.effect schema = .ok schema ↔
      Fallible.Succeeds (stmt.effect schema) ∧ stmt.Present schema := by
  cases stmt with
  | addColumn table column definition =>
      simp only [Statement.effect, Statement.Present]
      split_ifs <;> simp_all [Schema.ext_iff]
  | createTable name columns =>
      simp only [Statement.effect, Statement.Present]
      split_ifs <;> simp_all [Schema.ext_iff]
  | createIndex name table column =>
      simp only [Statement.effect, Statement.Present]
      split_ifs <;> simp_all [Schema.ext_iff]

theorem adds_effect (stmt : Statement) :
    Transaction.Adds Schema.size (fun schema => stmt.effect schema) := by
  intro schema t h
  cases stmt with
  | addColumn table column definition =>
      simp only [Statement.effect] at h
      split_ifs at h <;> cases h
      · exact Or.inl rfl
      · exact Or.inr (by simp [Schema.size])
  | createTable name columns =>
      simp only [Statement.effect] at h
      split_ifs at h <;> cases h
      · exact Or.inl rfl
      · refine Or.inr ?_
        simp only [Schema.size, List.length_append, List.length_singleton]
        omega
  | createIndex name table column =>
      simp only [Statement.effect] at h
      split_ifs at h <;> cases h
      · exact Or.inl rfl
      · exact Or.inr (by simp [Schema.size])

theorem adds_exec (db : Postgres) (stmt : Statement) :
    Transaction.Adds Schema.size (db.exec stmt) := by
  intro schema t h
  unfold Postgres.exec at h
  split at h
  · cases h
  · exact adds_effect stmt schema t h

theorem alone_exec_eq_self_iff (db : Postgres) (stmt : Statement) (schema : Schema) :
    Transaction.alone (db.exec stmt) schema = schema ↔
      (∃ exc, db.exec stmt schema = .error exc) ∨ stmt.Present schema := by
  unfold Transaction.alone
  cases hrefuses : db.refuses stmt schema with
  | some exc => simp [Postgres.exec, hrefuses]
  | none =>
      have hexec : db.exec stmt schema = stmt.effect schema := by
        simp only [Postgres.exec, hrefuses]
      have hself : stmt.effect schema = .ok schema ↔
          Fallible.Succeeds (stmt.effect schema) ∧ stmt.Present schema := effect_eq_self_iff
      rw [hexec]
      cases heffect : stmt.effect schema with
      | error exc => simp
      | ok t => simpa [heffect, Fallible.Succeeds] using hself

theorem adds_createModelIndex (name : String) :
    Transaction.Adds Schema.size (fun schema => createModelIndex schema name) := by
  intro schema t h
  simp only [createModelIndex] at h
  split_ifs at h
  cases h
  exact Or.inr (by simp [Schema.size])

theorem createModelTable_eq_ok {db : Postgres} {table : ModelTable} {schema t : Schema}
    (h : createModelTable db table schema = .ok t) :
    (t = schema ∧ table.name ∈ schema.tables) ∨
      schema.size < t.size ∧ table.name ∉ schema.tables := by
  unfold createModelTable at h
  split at h
  · rename_i hpresent
    cases h
    exact Or.inl ⟨rfl, hpresent⟩
  · rename_i habsent
    refine Or.inr ⟨?_, habsent⟩
    split at h
    · cases h
    · split at h
      · cases h
      · have hindexes := Transaction.foldlM_adds (fun name schema => createModelIndex schema name)
          (fun name _ => adds_createModelIndex name) h
        have hlarger : schema.size < (⟨schema.tables ++ [table.name],
            schema.columns ++ table.columns.map (fun c => (table.name, c)),
            schema.indexes⟩ : Schema).size := by
          simp only [Schema.size, List.length_append, List.length_singleton]
          omega
        rcases hindexes with ⟨rfl, -⟩ | hmore
        · exact hlarger
        · exact hlarger.trans hmore

theorem adds_createModelTable (db : Postgres) (table : ModelTable) :
    Transaction.Adds Schema.size (createModelTable db table) := by
  intro schema t h
  rcases createModelTable_eq_ok h with ⟨hsame, -⟩ | ⟨hlarger, -⟩
  · exact Or.inl hsame
  · exact Or.inr hlarger

/-- `create_all` leaves the schema alone exactly when all its tables exist. -/
theorem createAll_eq_ok {db : Postgres} {schema created : Schema}
    (h : createAll db schema = .ok created) :
    (created = schema ∧ ∀ table ∈ metadataTables, table.name ∈ schema.tables) ∨
      schema.size < created.size ∧ ¬ ∀ table ∈ metadataTables, table.name ∈ schema.tables := by
  rcases Transaction.foldlM_adds (createModelTable db)
    (fun table _ => adds_createModelTable db table) h with ⟨rfl, hall⟩ | hlarger
  · refine Or.inl ⟨rfl, ?_⟩
    intro table htable
    rcases createModelTable_eq_ok (hall table htable) with ⟨-, hpresent⟩ | ⟨hsize, -⟩
    · exact hpresent
    · exact absurd hsize (Nat.lt_irrefl _)
  · refine Or.inr ⟨hlarger, ?_⟩
    intro hall
    have hskip : ∀ table ∈ metadataTables, createModelTable db table schema = .ok schema := by
      intro table htable
      rw [createModelTable, if_pos (hall table htable)]
    have hsame := (Transaction.foldlM_of_fixed hskip).symm.trans h
    obtain rfl : schema = created := Except.ok.inj hsame
    exact absurd hlarger (Nat.lt_irrefl _)

/-- What start-up is for is the schema as it is exactly when there is nothing
to do. -/
theorem isolated_eq_self_iff {db : Postgres} {schema created : Schema}
    (h : createAll db schema = .ok created) :
    migrations.foldl (fun s stmt => Transaction.alone (db.exec stmt) s) created = schema ↔
      UpToDate db schema := by
  have hadded := Transaction.foldl_alone_adds (fun stmt (_ : stmt ∈ migrations) =>
    adds_exec db stmt) created
  rcases createAll_eq_ok h with ⟨rfl, htables⟩ | ⟨hlarger, htables⟩
  · constructor
    · intro hsame
      rcases hadded with ⟨-, hall⟩ | hmore
      · refine ⟨htables, ?_⟩
        intro stmt hstmt
        exact (alone_exec_eq_self_iff db stmt created).mp (hall stmt hstmt)
      · rw [hsame] at hmore
        exact absurd hmore (Nat.lt_irrefl _)
    · intro hdone
      exact Transaction.foldl_alone_of_fixed (fun stmt hstmt =>
        (alone_exec_eq_self_iff db stmt created).mpr (hdone.statements stmt hstmt))
  · constructor
    · intro hsame
      rcases hadded with ⟨hfixed, -⟩ | hmore
      · rw [← hfixed, hsame] at hlarger
        exact absurd hlarger (Nat.lt_irrefl _)
      · rw [hsame] at hmore
        exact absurd (hlarger.trans hmore) (Nat.lt_irrefl _)
    · intro hdone
      exact absurd hdone.tables htables

/-! ## One transaction -/

theorem initDb_of_created {db : Postgres} {schema created : Schema}
    (h : createAll db schema = .ok created) :
    initDb db schema = (.ok (), (Transaction.attemptAll inFailedTransaction db.exec migrations
      ⟨schema, some created⟩).commit) := by
  have hignore : executeIgnoring db =
      fun tx stmt => tx.attempt inFailedTransaction (db.exec stmt) := by
    funext tx stmt
    unfold executeIgnoring Transaction.attempt
    split <;> simp_all
  simp only [initDb, Transaction.execute, Transaction.start, h]
  rw [hignore]
  rfl

theorem initDb_of_error {db : Postgres} {schema : Schema} {exc : Exc}
    (h : createAll db schema = .error exc) : initDb db schema = (.error exc, schema) := by
  simp only [initDb, Transaction.execute, Transaction.start, h]
  rfl

/-- A start-up in which a statement fails keeps the schema it found, and
reports success. -/
theorem initDb_of_failure {db : Postgres} {schema created : Schema}
    (h : createAll db schema = .ok created)
    (hfails : ¬ Fallible.Succeeds (migrations.foldlM (fun s stmt => db.exec stmt s) created)) :
    initDb db schema = (.ok (), schema) := by
  rw [initDb_of_created h, Transaction.commit_attemptAll]
  cases hall : migrations.foldlM (fun s stmt => db.exec stmt s) created with
  | error exc => rfl
  | ok t => exact absurd ⟨t, hall⟩ hfails

/-- It finds the same schema at every restart. -/
theorem restarts_of_failure {db : Postgres} {schema created : Schema}
    (h : createAll db schema = .ok created)
    (hfails : ¬ Fallible.Succeeds (migrations.foldlM (fun s stmt => db.exec stmt s) created))
    (n : ℕ) : (fun s => (initDb db s).2)^[n] schema = schema := by
  apply Function.iterate_fixed
  rw [initDb_of_failure h hfails]

theorem isolatesFailures_iff (db : Postgres) (schema : Schema) :
    IsolatesFailures db schema ↔
      (∃ exc, createAll db schema = .error exc) ∨
      (∃ created, createAll db schema = .ok created ∧
        Fallible.Succeeds (migrations.foldlM (fun s stmt => db.exec stmt s) created)) ∨
      UpToDate db schema := by
  cases hcreate : createAll db schema with
  | error exc =>
      have hraises := initDb_of_error hcreate
      refine iff_of_true ?_ (Or.inl ⟨exc, rfl⟩)
      intro created committed h _
      rw [hcreate] at h
      cases h
  | ok created =>
      have hiff := Transaction.commit_attemptAll_eq_iff inFailedTransaction db.exec schema created
        migrations
      rw [isolated_eq_self_iff hcreate] at hiff
      simp only [IsolatesFailures, hcreate, initDb_of_created hcreate]
      simpa using hiff

/-- A database from before two of the columns. -/
def olderSchema : Schema where
  tables := metadataTables.map ModelTable.name
  columns := (metadataTables.flatMap fun table =>
    table.columns.map (fun c => (table.name, c))).filter
      (fun c => c ∉ [("routes", "filter_expression"), ("outbox_records", "status")])

/-- The index on the column that `outbox_records` does not have fails, and
`routes` does not get its column. -/
theorem filter_expression_lost : ¬ ∀ db schema, IsolatesFailures db schema := by
  intro h
  let db : Postgres := ⟨fun _ _ => none, fun _ _ => none⟩
  have hcreated : createAll db olderSchema = .ok olderSchema := rfl
  have hcommitted : initDb db olderSchema = (.ok (), olderSchema) := rfl
  have hsame := h db olderSchema olderSchema olderSchema hcreated hcommitted
  have hcolumn : ("routes", "filter_expression") ∈
      (migrations.foldl (fun s stmt => Transaction.alone (db.exec stmt) s)
        olderSchema).columns := by
    decide +kernel
  rw [← hsame] at hcolumn
  exact absurd hcolumn (by decide +kernel)

end WebhookRelay.Startup
