import IdlDocs.Registry.Library

/-!
# What is loaded

A registry is a memory: what it gives for a name is settled by the library and by what it
keeps, whatever has been asked for.  This file says for each step of loading what it gives
and what it leaves.

* `valueAt`, `outcomeAt`, `registryAfter`: what a lookup gives at a registry, and what it
  leaves.
* `Library.tablesAt`, `Library.documentAt`: **the tables and the document of a name**, as a
  registry gives them.
* `outcomeAt_tables`, `outcomeAt_document`: the lookups give these.
* `registryAfter_tables`, `registryAfter_document_kept`, `registryAfter_document_new`: what the
  lookups leave.
* `Library.kept_or_read_of_documentAt`: a document is kept, or it is read from a text.
-/

namespace IdlDocs

variable {α β : Type}

/-- What a lookup gives. -/
def valueAt (l : Library) (r : Registry) (a : Lookup α) : α := ((a.run l).run r).1

/-- The registry that a lookup leaves. -/
def registryAfter (l : Library) (r : Registry) (a : Lookup α) : Registry := ((a.run l).run r).2

/-- What an attempt gives. -/
def outcomeAt (l : Library) (r : Registry) (a : Attempt α) : Except Failure α :=
  valueAt l r a.result

/-! ## Outcomes -/

theorem bind_eq_ok_iff {x : Except Failure α} {f : α → Except Failure β} {b : β} :
    x.bind f = .ok b ↔ ∃ a, x = .ok a ∧ f a = .ok b := by
  cases x <;> simp [Except.bind]

theorem map_eq_ok_iff {x : Except Failure α} {f : α → β} {b : β} :
    x.map f = .ok b ↔ ∃ a, x = .ok a ∧ f a = b := by
  cases x <;> simp [Except.map]

/-! ## One step after another -/

theorem valueAt_then (l : Library) (r : Registry) (a : Lookup α) (f : α → Lookup β) :
    valueAt l r (a >>= f) = valueAt l (registryAfter l r a) (f (valueAt l r a)) := rfl

theorem registryAfter_then (l : Library) (r : Registry) (a : Lookup α) (f : α → Lookup β) :
    registryAfter l r (a >>= f) = registryAfter l (registryAfter l r a) (f (valueAt l r a)) :=
  rfl

theorem outcomeAt_then (l : Library) (r : Registry) (a : Attempt α) (f : α → Attempt β) :
    outcomeAt l r (a >>= f) =
      (outcomeAt l r a).bind fun x => outcomeAt l (registryAfter l r a.result) (f x) := by
  unfold outcomeAt Attempt.result
  rw [ExceptT.run_bind, valueAt_then]
  cases valueAt l r a.run <;> rfl

theorem registryAfter_attempt_then (l : Library) (r : Registry) (a : Attempt α)
    (f : α → Attempt β) :
    registryAfter l r (a >>= f).result =
      match outcomeAt l r a with
      | .ok x => registryAfter l (registryAfter l r a.result) (f x).result
      | .error _ => registryAfter l r a.result := by
  unfold outcomeAt Attempt.result
  rw [ExceptT.run_bind, registryAfter_then]
  cases valueAt l r a.run <;> rfl

/-- An attempt after a value that is at hand looks at the same registry. -/
theorem outcomeAt_ofExcept_then (l : Library) (r : Registry) (x : Except Failure α)
    (f : α → Attempt β) :
    outcomeAt l r (liftM x >>= f) = x.bind fun a => outcomeAt l r (f a) :=
  outcomeAt_then l r (liftM x) f

/-! ## Single texts -/

def Library.fetched (l : Library) (name location : String) : Except Failure String :=
  (l.source.answer location).mapError fun e => .fetch name e.location e.cause

/-- The value of the text at a location, or why there is none. -/
def Library.loaded (l : Library) (name location : String) (decode : Json → Option α) :
    Except Failure α :=
  (l.fetched name location).bind fun text =>
    ((Json.parse? text).bind decode).elim (.error (.decode name location)) .ok

theorem Library.exists_text_of_loaded {l : Library} {name location : String}
    {decode : Json → Option α} {a : α} (h : l.loaded name location decode = .ok a) :
    ∃ text, l.source.answer location = .ok text ∧ (Json.parse? text).bind decode = some a := by
  obtain ⟨text, hfetched, hvalue⟩ := bind_eq_ok_iff.1 h
  refine ⟨text, ?_, ?_⟩
  · unfold Library.fetched at hfetched
    cases ht : l.source.answer location with
    | error e => rw [ht] at hfetched; cases hfetched
    | ok text' => rw [ht] at hfetched; cases hfetched; rfl
  · cases hd : (Json.parse? text).bind decode with
    | none => rw [hd] at hvalue; cases hvalue
    | some b => rw [hd] at hvalue; cases hvalue; rfl

theorem fetch_eq (name location : String) :
    Registry.fetch name location = (do
      modify fun r => { r with asked := location :: r.asked }
      let l ← read
      liftM (l.fetched name location)) := by
  unfold Registry.fetch Library.fetched
  refine bind_congr fun _ => bind_congr fun l => ?_
  cases l.source.answer location <;> rfl

theorem outcomeAt_fetch (l : Library) (r : Registry) (name location : String) :
    outcomeAt l r (Registry.fetch name location) = l.fetched name location := by
  rw [fetch_eq]
  rfl

theorem registryAfter_fetch (l : Library) (r : Registry) (name location : String) :
    registryAfter l r (Registry.fetch name location).result =
      { r with asked := location :: r.asked } := by
  rw [fetch_eq]
  rfl

theorem outcomeAt_load (l : Library) (r : Registry) (name location : String)
    (decode : Json → Option α) :
    outcomeAt l r (Registry.load name location decode) = l.loaded name location decode := by
  unfold Registry.load Library.loaded
  rw [outcomeAt_then, outcomeAt_fetch]
  congr 1
  funext text
  cases (Json.parse? text).bind decode <;> rfl

theorem registryAfter_load (l : Library) (r : Registry) (name location : String)
    (decode : Json → Option α) :
    registryAfter l r (Registry.load name location decode).result =
      { r with asked := location :: r.asked } := by
  unfold Registry.load
  rw [registryAfter_attempt_then, registryAfter_fetch]
  cases outcomeAt l r (Registry.fetch name location) with
  | error e => rfl
  | ok text => cases h : (Json.parse? text).bind decode <;> simp only [h] <;> rfl

/-! ## The tables -/

def Library.loadedTables (l : Library) : Except Failure Tables := do
  let groups ← l.loaded "GroupData" l.config.groups groupsOfJson?
  let names ← l.loaded "idlnames" l.config.names namesOfJson?
  let events ← l.loaded "events" l.config.events eventsOfJson?
  return { groups, names, events }

/-- The tables, as a registry gives them: those that it keeps, else those of the library. -/
def Library.tablesAt (l : Library) (r : Registry) : Except Failure Tables :=
  r.kept.elim l.loadedTables .ok

theorem Library.tablesAt_of_kept {l : Library} {r : Registry} {t : Tables}
    (h : r.kept = some t) : l.tablesAt r = .ok t := by
  unfold Library.tablesAt
  rw [h]
  rfl

theorem outcomeAt_loadTables (l : Library) (r : Registry) :
    outcomeAt l r Registry.loadTables = l.loadedTables := by
  unfold Registry.loadTables
  simp only [outcomeAt_then, outcomeAt_load]
  rfl

/-- The locations that loading the tables asks for, the last one first: up to the first one
that cannot be loaded. -/
def Library.tableRequests (l : Library) : List String :=
  match l.loaded "GroupData" l.config.groups groupsOfJson?,
    l.loaded "idlnames" l.config.names namesOfJson? with
  | .error _, _ => [l.config.groups]
  | .ok _, .error _ => [l.config.names, l.config.groups]
  | .ok _, .ok _ => [l.config.events, l.config.names, l.config.groups]

theorem registryAfter_loadTables (l : Library) (r : Registry) :
    registryAfter l r Registry.loadTables.result =
      { r with asked := l.tableRequests ++ r.asked } := by
  unfold Registry.loadTables Library.tableRequests
  rw [registryAfter_attempt_then]
  change registryAfter l r (Attempt.result
    (Registry.load "GroupData" l.config.groups groupsOfJson? >>= _)) = _
  rw [registryAfter_attempt_then, outcomeAt_load, registryAfter_load]
  cases l.loaded "GroupData" l.config.groups groupsOfJson? with
  | error e => rfl
  | ok groups =>
    dsimp only
    rw [registryAfter_attempt_then, outcomeAt_load, registryAfter_load]
    cases l.loaded "idlnames" l.config.names namesOfJson? with
    | error e => rfl
    | ok names =>
      dsimp only
      rw [registryAfter_attempt_then, outcomeAt_load, registryAfter_load]
      cases l.loaded "events" l.config.events eventsOfJson? <;> rfl

theorem tables_eq :
    Registry.tables = (do
      let r ← get
      r.kept.elim (do
        let t ← Registry.loadTables
        modify fun r => { r with kept := some t }
        return t) pure) := by
  unfold Registry.tables
  refine bind_congr fun r => ?_
  cases r.kept <;> rfl

theorem outcomeAt_tables (l : Library) (r : Registry) :
    outcomeAt l r Registry.tables = l.tablesAt r := by
  unfold Library.tablesAt
  rw [tables_eq, outcomeAt_then]
  change outcomeAt l r (r.kept.elim (Registry.loadTables >>= _) pure) = _
  cases hk : r.kept with
  | some t => rfl
  | none =>
    change outcomeAt l r (Registry.loadTables >>= _) = _
    rw [outcomeAt_then, outcomeAt_loadTables]
    cases l.loadedTables <;> rfl

/-- The locations that the lookup of the tables asks for, none if they are kept. -/
def Library.tableRequestsAt (l : Library) (r : Registry) : List String :=
  r.kept.elim l.tableRequests fun _ => []

/-- **What the lookup of the tables leaves**: the tables, if they can be had, and the
documents as they were. -/
theorem registryAfter_tables (l : Library) (r : Registry) :
    registryAfter l r Registry.tables.result =
      { r with kept := (l.tablesAt r).toOption, asked := l.tableRequestsAt r ++ r.asked } := by
  obtain ⟨kept, documents, asked⟩ := r
  unfold Registry.tables Library.tablesAt Library.tableRequestsAt
  cases kept with
  | some t => rfl
  | none =>
    change registryAfter l ⟨none, documents, asked⟩
      (Attempt.result (Registry.loadTables >>= _)) = _
    rw [registryAfter_attempt_then, outcomeAt_loadTables, registryAfter_loadTables,
      Option.elim_none, Option.elim_none]
    cases l.loadedTables <;> rfl

/-! ## Documents -/

/-- The document of a name, as a registry gives it: the one that it keeps, else the one at
the location that the tables say. -/
def Library.documentAt (l : Library) (r : Registry) (name : String) : Except Failure Document :=
  (r.documents.lookup name).elim
    ((l.tablesAt r).bind fun t => l.loaded name (t.locationOf l.config name) Document.ofJson?) .ok

theorem Library.documentAt_of_kept {l : Library} {r : Registry} {name : String} {d : Document}
    (h : r.documents.lookup name = some d) : l.documentAt r name = .ok d := by
  unfold Library.documentAt
  rw [h]
  rfl

theorem Library.documentAt_of_new {l : Library} {r : Registry} {name : String}
    (h : r.documents.lookup name = none) :
    l.documentAt r name = (l.tablesAt r).bind fun t =>
      l.loaded name (t.locationOf l.config name) Document.ofJson? := by
  unfold Library.documentAt
  rw [h]
  rfl

theorem Library.kept_or_read_of_documentAt {l : Library} {r : Registry} {name : String}
    {d : Document} (h : l.documentAt r name = .ok d) :
    r.documents.lookup name = some d ∨
      ∃ location text, l.source.answer location = .ok text ∧
        (Json.parse? text).bind Document.ofJson? = some d := by
  cases hk : r.documents.lookup name with
  | some e =>
    rw [Library.documentAt_of_kept hk] at h
    cases h
    exact .inl rfl
  | none =>
    rw [Library.documentAt_of_new hk] at h
    obtain ⟨t, -, hloaded⟩ := bind_eq_ok_iff.1 h
    exact .inr ⟨_, Library.exists_text_of_loaded hloaded⟩

theorem outcomeAt_location (l : Library) (r : Registry) (name : String) :
    outcomeAt l r (Registry.location name) =
      (l.tablesAt r).map fun t => t.locationOf l.config name := by
  unfold Registry.location
  rw [outcomeAt_then, outcomeAt_tables]
  cases l.tablesAt r <;> rfl

theorem registryAfter_location (l : Library) (r : Registry) (name : String) :
    registryAfter l r (Registry.location name).result =
      registryAfter l r Registry.tables.result := by
  unfold Registry.location
  rw [registryAfter_attempt_then]
  cases outcomeAt l r Registry.tables <;> rfl

theorem document_eq (name : String) :
    Registry.document name = (do
      let r ← get
      (r.documents.lookup name).elim (do
        let d ← Registry.load name (← Registry.location name) Document.ofJson?
        modify fun r => { r with documents := r.documents ++ [(name, d)] }
        return d) pure) := by
  unfold Registry.document
  refine bind_congr fun r => ?_
  cases r.documents.lookup name <;> rfl

theorem outcomeAt_document (l : Library) (r : Registry) (name : String) :
    outcomeAt l r (Registry.document name) = l.documentAt r name := by
  unfold Library.documentAt
  rw [document_eq, outcomeAt_then]
  change outcomeAt l r ((r.documents.lookup name).elim (Registry.location name >>= _) pure) = _
  cases hd : r.documents.lookup name with
  | some d => rfl
  | none =>
    change outcomeAt l r (Registry.location name >>= _) = _
    rw [outcomeAt_then, outcomeAt_location]
    cases l.tablesAt r with
    | error e => rfl
    | ok t =>
      change outcomeAt l _ (Registry.load name (t.locationOf l.config name) _ >>= _) = _
      rw [outcomeAt_then, outcomeAt_load]
      change Except.bind _ _ = l.loaded name (t.locationOf l.config name) Document.ofJson?
      cases l.loaded name (t.locationOf l.config name) Document.ofJson? <;> rfl

def Library.newDocuments (l : Library) (r : Registry) (name : String) :
    List (String × Document) :=
  match r.documents.lookup name, l.documentAt r name with
  | none, .ok d => [(name, d)]
  | _, _ => []

/-- The locations that the lookup of a document asks for: none if it is kept, else its own
after those of the tables, if these can be had. -/
def Library.documentRequests (l : Library) (r : Registry) (name : String) : List String :=
  match r.documents.lookup name, l.tablesAt r with
  | some _, _ => []
  | none, .error _ => l.tableRequestsAt r
  | none, .ok t => t.locationOf l.config name :: l.tableRequestsAt r

/-- The lookup of a document that is kept leaves everything as it was. -/
theorem registryAfter_document_kept (l : Library) {r : Registry} {name : String} {d : Document}
    (h : r.documents.lookup name = some d) :
    registryAfter l r (Registry.document name).result = r := by
  rw [document_eq]
  change registryAfter l r (Attempt.result
    ((r.documents.lookup name).elim (Registry.location name >>= _) pure)) = _
  rw [h]
  rfl

/-- **What the lookup of a document leaves** that has not been kept: the document, if it can
be loaded, and the tables, which say where it is. -/
theorem registryAfter_document_new (l : Library) {r : Registry} {name : String}
    (h : r.documents.lookup name = none) :
    registryAfter l r (Registry.document name).result =
      ⟨(l.tablesAt r).toOption, r.documents ++ l.newDocuments r name,
        l.documentRequests r name ++ r.asked⟩ := by
  unfold Library.newDocuments Library.documentRequests Library.documentAt
  rw [document_eq]
  change registryAfter l r (Attempt.result
    ((r.documents.lookup name).elim (Registry.location name >>= _) pure)) = _
  rw [h]
  change registryAfter l r (Attempt.result (Registry.location name >>= _)) = _
  rw [registryAfter_attempt_then, registryAfter_location, outcomeAt_location,
    registryAfter_tables]
  cases ht : l.tablesAt r with
  | error e => exact congrArg (Registry.mk none · _) (List.append_nil _).symm
  | ok t =>
    change registryAfter l _ (Attempt.result
      (Registry.load name (t.locationOf l.config name) Document.ofJson? >>= _)) = _
    rw [registryAfter_attempt_then, outcomeAt_load, registryAfter_load]
    simp only [Option.elim_none, Except.bind]
    cases l.loaded name (t.locationOf l.config name) Document.ofJson? with
    | error e => exact congrArg (Registry.mk (some t) · _) (List.append_nil _).symm
    | ok d => rfl

end IdlDocs
