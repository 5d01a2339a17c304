import DripVpn.Db.ParseJson

/-!
# Importing several documents

`ProfileManager.createProfilesFromJson`: every document is tried, and the first exception is thrown
at the end. With `replace`, the old rows are deleted before the first profile is created, so that
they survive when no document yields a profile, and a new profile takes over the statistics of the
old one with its address.

A document is written row by row and in no transaction. That it adds all its rows or none comes from
the order of the phases: everything that can refuse a document happens before the first row.
-/

open Reactive

/-- What stands after the values that `JsonStreamParser` reads from a stream. -/
inductive StreamEnd where
  | endDocument
  /-- `hasNext` throws. -/
  | malformedToken
  /-- `hasNext` returns true and `next` throws. -/
  | malformedValue
  deriving DecidableEq, Repr

/-- A stream, as `JsonStreamParser` sees it. -/
structure Document where
  values : List JsonElement
  rest : StreamEnd

/-- What the work on a document throws. -/
inductive ImportException where
  /-- `NoSuchElementException` of `single`. -/
  | noSuchElement
  /-- `IllegalArgumentException` of `single`: there is a second value. -/
  | illegalArgument
  /-- `JsonParseException`. -/
  | jsonParse
  | storage (e : StorageException)
  deriving DecidableEq, Repr

/-- `JsonStreamParser(…).asSequence().single()`. -/
def Document.single : Document → Except ImportException JsonElement
  | ⟨[], .endDocument⟩ => .error .noSuchElement
  | ⟨[], _⟩ => .error .jsonParse
  | ⟨[value], .endDocument⟩ => .ok value
  | ⟨[_], .malformedToken⟩ => .error .jsonParse
  | _ => .error .illegalArgument

namespace ProfileManager

variable {τ : Type}

/-- `expand`. -/
def expand (profile : Profile) : DaoProgram τ ExpandedProfile :=
  match profile.udpFallback with
  | none => pure ⟨profile, none⟩
  | some id => do
    let udpFallback ← getProfile id
    pure ⟨profile, udpFallback⟩

/-- `Core.currentProfile`; `deviceProfile` is the profile of direct boot, if the device is aware of
it. -/
def currentProfile (deviceProfile : Option ExpandedProfile) (profileId : Int64) :
    DaoProgram τ (Option ExpandedProfile) :=
  match deviceProfile with
  -- `if (DataStore.directBootAware) DirectBoot.getDeviceProfile()?.apply { return this }`
  | some expanded => pure (some expanded)
  | none => do
    match ← getProfile profileId with
    | none => pure none
    | some profile => do
      let expanded ← expand profile
      pure (some expanded)

/-- `associateBy { it.formattedAddress }`: the last profile of an address stays. -/
def associateByAddress (profiles : List Profile) : LinkedMap String Profile :=
  profiles.foldl (fun m p => m.put p.formattedAddress p) LinkedMap.empty

/-- `singleOrNull { it.id == profileId }`. -/
def singleOrNull (profileId : Int64) (profiles : List Profile) : Option Profile :=
  match profiles.filter fun p => p.id = profileId with
  | [p] => some p
  | _ => none

/-- `lazyClear`, the local variable of `createProfilesFromJson`. -/
structure LazyClear where
  /-- `lazyClear.isInitialized()`. -/
  initialized : Bool := false
  deriving DecidableEq

/-- `lazyClear.value`. -/
def lazyClear : DaoProgram LazyClear Unit := do
  let s ← Session.get
  if s.own.initialized then pure ()
  else
    clear
    Session.modify fun s => { s with own := { initialized := true } }

/-- Copy the statistics of the profile with the same address. -/
def copyStats (profiles : LinkedMap String Profile) (it : Profile) : Profile :=
  match profiles.get? it.formattedAddress with
  | some old => { it with tx := old.tx, rx := old.rx }
  | none => it

/-- The callback; `profiles` are the old ones by their address, if they are replaced. -/
def createFromJson (profiles : Option (LinkedMap String Profile)) (it : Profile) :
    DaoProgram LazyClear Int64 :=
  match profiles with
  | some profiles => do
    lazyClear
    -- "if two profiles has the same address, treat them as the same profile and copy stats over"
    createProfile (copyStats profiles it)
  | none => createProfile it

/-- The work on one document. -/
def importDocument (hash : HashOrder) (feature : Option Profile)
    (profiles : Option (LinkedMap String Profile)) (json : Document) :
    Session DaoCall.Result (Heap LazyClear) ImportException Unit :=
  match json.single with
  | .error e => Session.throw e
  | .ok json =>
    Session.mapException .storage (Profile.parseJson hash json feature (createFromJson profiles))

/-- The old profiles by their address, and the profile whose settings are copied. -/
def importSettings (deviceProfile : Option ExpandedProfile) (profileId : Int64) (replace : Bool) :
    DaoProgram LazyClear (Option (LinkedMap String Profile) × Option Profile) :=
  if replace then do
    let all ← getAllProfiles
    let profiles := associateByAddress all
    pure (some profiles, singleOrNull profileId (profiles.entries.map Prod.snd))
  else do
    let expanded ← currentProfile deviceProfile profileId
    pure (none, expanded.map ExpandedProfile.main)

/-- `createProfilesFromJson`. -/
def createProfilesFromJson (hash : HashOrder) (deviceProfile : Option ExpandedProfile)
    (profileId : Int64) (jsons : List Document) (replace : Bool) :
    Session DaoCall.Result (Heap LazyClear) (ImportException × List ImportException) Unit := do
  let (profiles, feature) ← Session.mapException (fun e => (.storage e, []))
    (importSettings deviceProfile profileId replace)
  Session.forEachTry jsons (importDocument hash feature profiles)

/-! ## What the documents are read as -/

/-- The profiles of a document, or the exception that ends the work on it before any row. -/
def parse (hash : HashOrder) (feature : Option Profile) (json : Document) :
    Except ImportException JsonParser :=
  match json.single with
  | .error e => .error e
  | .ok json =>
    (JsonParser.process hash feature {} json).mapError fun message =>
      .storage (.illegalState message)

/-- The exception of a document. -/
def failure (hash : HashOrder) (feature : Option Profile) (json : Document) :
    Option ImportException :=
  match parse hash feature json with
  | .error e => some e
  | .ok _ => none

/-- Whether a document yields a profile. -/
def yields (hash : HashOrder) (feature : Option Profile) (json : Document) : Bool :=
  match parse hash feature json with
  | .error _ => false
  | .ok parser => !parser.profiles.isEmpty

/-- What `importSettings` makes of the rows. -/
def settingsOf (deviceProfile : Option ExpandedProfile) (profileId : Int64) (replace : Bool)
    (table : ProfileTable) : Option (LinkedMap String Profile) × Option Profile :=
  if replace then
    (some (associateByAddress table.rows),
      singleOrNull profileId ((associateByAddress table.rows).entries.map Prod.snd))
  else (none, (deviceProfile.map ExpandedProfile.main).or (table.get profileId))

/-- The profile that the callback creates. -/
def prepared (profiles : Option (LinkedMap String Profile)) (it : Profile) : Profile :=
  match profiles with
  | some profiles => copyStats profiles it
  | none => it

section

variable (hash : HashOrder) (feature : Option Profile) (prepare : Profile → Profile)
  (sequence : ℕ)

/-- The rows that a document adds to the rows `before`. -/
def Contributes (before : List Profile) (json : Document) (part : List Profile) : Prop :=
  match parse hash feature json with
  | .error _ => part = []
  | .ok parser => JsonParser.Adds prepare sequence before parser part

/-- The rows that the documents add one after another. -/
inductive Contributions : List Profile → List Document → List (List Profile) → Prop
  | nil (before) : Contributions before [] []
  | cons {before json jsons part parts} :
      Contributes hash feature prepare sequence before json part →
      Contributions (before ++ part) jsons parts →
      Contributions before (json :: jsons) (part :: parts)

end

/-- The outcome of an import into `db`: every document adds its rows or none. -/
structure Imported (hash : HashOrder) (feature : Option Profile) (prepare : Profile → Profile)
    (replace : Bool) (db : ProfileDatabase) (jsons : List Document)
    (result : Except (ImportException × List ImportException) Unit) (after : List Profile) :
    Prop where
  /-- What was there, unless it is replaced, and what the documents add. -/
  rows : ∃ parts, Contributions hash feature prepare db.sequence
      (if replace && jsons.any (yields hash feature) then [] else db.table.rows) jsons parts ∧
    after = (if replace && jsons.any (yields hash feature) then [] else db.table.rows) ++
      parts.flatten
  unchanged : (∀ json ∈ jsons, yields hash feature json = false) → after = db.table.rows
  replaced : replace = true → (∃ json ∈ jsons, yields hash feature json = true) →
    ∀ row ∈ db.table.rows, row.id ∉ after.map Profile.id
  kept : replace = false → db.table.rows <+: after
  throws : (∃ e, result = .error e) ↔ ∃ json ∈ jsons, (failure hash feature json).isSome
  /-- The first exception is thrown, and the others are suppressed. -/
  exceptions : ∀ e es, result = .error (e, es) → e :: es = jsons.filterMap (failure hash feature)

/-! ## The callback -/

section

variable {hash : HashOrder} {feature : Option Profile} {prepare : Profile → Profile}
  {sequence : ℕ}

/-- Once the old rows are gone, and without `replace`, the callback only creates rows. -/
theorem createsRows_createFromJson {profiles : Option (LinkedMap String Profile)}
    {own : LazyClear} (h : profiles = none ∨ own.initialized = true) :
    JsonParser.CreatesRows (createFromJson profiles) (prepared profiles) own := by
  intro p s hown
  cases profiles with
  | none => rfl
  | some profiles =>
    have hcleared : s.own.initialized = true := by
      rw [hown]
      exact h.resolve_left (Option.some_ne_none _)
    have hlazy : lazyClear s = .done (.ok (), s) := by
      show (if s.own.initialized then pure () else _ : DaoProgram LazyClear Unit) s = _
      rw [if_pos hcleared]
      rfl
    show (lazyClear s).bind _ = _
    rw [hlazy]
    rfl

/-- The first profile deletes the old rows. -/
theorem createFromJson_first (profiles : LinkedMap String Profile) (p : Profile)
    {s : Heap LazyClear} (h : s.own.initialized = false) :
    createFromJson (some profiles) p s = .call .deleteAll fun _ =>
      createFromJson (some profiles) p { s with own := { initialized := true } } := by
  have hlazy : lazyClear s = .call .deleteAll fun _ =>
      .done (.ok (), { s with own := { initialized := true } }) := by
    show (if s.own.initialized then pure () else _ : DaoProgram LazyClear Unit) s = _
    rw [h]
    rfl
  show (lazyClear s).bind _ = _
  rw [hlazy]
  rfl

/-! ## One document -/

/-- Without profiles the callback is never called. -/
theorem parseJson_of_profiles_eq_nil {json : JsonElement} {parser : JsonParser}
    (hprocess : JsonParser.process hash feature {} json = .ok parser)
    (hprofiles : parser.profiles = []) (create create' : Profile → DaoProgram τ Int64) :
    Profile.parseJson hash json feature create = Profile.parseJson hash json feature create' := by
  rw [Profile.parseJson, Profile.parseJson, hprocess]
  simp only [hprofiles]
  rfl

/-- The first profile of a document deletes the old rows before anything else happens. -/
theorem parseJson_first (profiles : LinkedMap String Profile) {json : JsonElement}
    {parser : JsonParser} (hprocess : JsonParser.process hash feature {} json = .ok parser)
    (hprofiles : parser.profiles ≠ []) {s : Heap LazyClear} (h : s.own.initialized = false) :
    Profile.parseJson hash json feature (createFromJson (some profiles)) s =
      .call .deleteAll fun _ =>
        Profile.parseJson hash json feature (createFromJson (some profiles))
          { s with own := { initialized := true } } := by
  obtain ⟨p, rest, hcons⟩ := List.exists_cons_of_ne_nil hprofiles
  rw [Profile.parseJson, hprocess]
  simp only [hcons]
  show ((createFromJson (some profiles) p s).bind _).bind _ = _
  rw [createFromJson_first profiles p h]
  rfl

/-- The rows to which a document adds its own. -/
def base (profiles : Option (LinkedMap String Profile)) (initialized : Bool) (yield : Bool)
    (all : List Profile) : List Profile :=
  if profiles.isSome && !initialized && yield then [] else all

/-- A document that the parser accepts adds its rows. -/
theorem ensures_parseJson_document (profiles : Option (LinkedMap String Profile))
    {json : JsonElement} {parser : JsonParser}
    (hprocess : JsonParser.process hash feature {} json = .ok parser) (initialized : Bool)
    (all : List Profile) {E : StorageException → Heap LazyClear → ProfileDatabase → Prop} :
    Session.Ensures ProfileDatabase.service (JsonParser.At sequence { initialized } all [])
      (Profile.parseJson hash json feature (createFromJson profiles))
      (fun _ s db => ∃ part,
        JsonParser.Adds (prepared profiles) sequence
          (base profiles initialized (!parser.profiles.isEmpty) all) parser part ∧
        JsonParser.At sequence
          { initialized := initialized || (profiles.isSome && !parser.profiles.isEmpty) }
          (base profiles initialized (!parser.profiles.isEmpty) all ++ part) [] s db) E := by
  have hrows : ∀ {create : Profile → DaoProgram LazyClear Int64} {own : LazyClear}
      (before : List Profile), JsonParser.CreatesRows create (prepared profiles) own →
      Session.Ensures ProfileDatabase.service (JsonParser.At sequence own before [])
        (Profile.parseJson hash json feature create)
        (fun _ s db => ∃ part, JsonParser.Adds (prepared profiles) sequence before parser part ∧
          JsonParser.At sequence own (before ++ part) [] s db) E := by
    intro create own before hcreate
    refine (JsonParser.ensures_parseJson_rows hcreate hash feature json before).of_imp
      (fun _ _ h => h) ?_ ?_
    · rintro _ s db ⟨parser', part, hprocess', hadds, hat⟩
      rw [hprocess] at hprocess'
      obtain rfl := Except.ok.inj hprocess'
      exact ⟨part, hadds, hat⟩
    · rintro e s db ⟨-, message, -, herror⟩
      rw [hprocess] at herror
      cases herror
  by_cases hsteady : profiles = none ∨ initialized = true
  · have hbase : base profiles initialized (!parser.profiles.isEmpty) all = all := by
      rcases hsteady with rfl | rfl
      · rfl
      · simp [base]
    have hown : (initialized || (profiles.isSome && !parser.profiles.isEmpty)) = initialized := by
      rcases hsteady with rfl | rfl
      · simp
      · rfl
    rw [hbase, hown]
    exact hrows all (createsRows_createFromJson hsteady)
  · rw [not_or, Bool.not_eq_true] at hsteady
    obtain ⟨hsome, rfl⟩ := hsteady
    obtain ⟨m, rfl⟩ := Option.ne_none_iff_exists'.mp hsome
    by_cases hprofiles : parser.profiles = []
    -- nothing is deleted, whatever the callback would do
    · rw [parseJson_of_profiles_eq_nil hprocess hprofiles _
        fun p => createProfile (prepared (some m) p)]
      simp only [base, hprofiles, List.isEmpty_nil, Bool.not_true, Bool.and_false,
        Bool.false_eq_true, if_false, Bool.or_false]
      exact hrows all fun p s _ => rfl
    · have hyields : (!parser.profiles.isEmpty) = true := by simpa using hprofiles
      simp only [base, hyields, Option.isSome_some, Bool.not_false, Bool.and_true, if_true,
        Bool.or_true]
      intro s db hat hall
      rw [parseJson_first m hprocess hprofiles (by rw [hat.own])] at hall ⊢
      have hcleared : JsonParser.At sequence { initialized := true } []
          [] ({ s with own := { initialized := true } } : Heap LazyClear) db.deleteAll :=
        ⟨hat.sequence_le, rfl, rfl, hat.loaded⟩
      exact hrows [] (createsRows_createFromJson (Or.inr rfl)) _ _ hcleared hall.2

/-- The work on one document. -/
theorem ensures_importDocument (profiles : Option (LinkedMap String Profile)) (json : Document)
    (initialized : Bool) (all : List Profile) :
    Session.Ensures ProfileDatabase.service (JsonParser.At sequence { initialized } all [])
      (importDocument hash feature profiles json)
      (fun _ s db => failure hash feature json = none ∧ ∃ part,
        Contributes hash feature (prepared profiles) sequence
          (base profiles initialized (yields hash feature json) all) json part ∧
        JsonParser.At sequence
          { initialized := initialized || (profiles.isSome && yields hash feature json) }
          (base profiles initialized (yields hash feature json) all ++ part) [] s db)
      (fun e s db => failure hash feature json = some e ∧ yields hash feature json = false ∧
        Contributes hash feature (prepared profiles) sequence all json [] ∧
        JsonParser.At sequence { initialized } all [] s db) := by
  rw [importDocument]
  unfold failure Contributes yields parse
  cases json.single with
  | error e => exact Session.ensures_throw e fun s db h => ⟨rfl, rfl, rfl, h⟩
  | ok value =>
    refine Session.ensures_mapException ?_
    simp only
    cases hprocess : JsonParser.process hash feature {} value with
    | error message =>
      rw [Profile.parseJson, hprocess]
      exact Session.ensures_throw _ fun s db h => ⟨rfl, rfl, trivial, h⟩
    | ok parser =>
      refine (ensures_parseJson_document profiles hprocess initialized all).of_imp
        (fun _ _ h => h) (fun _ s db h => ?_) (fun _ _ _ h => h)
      exact ⟨rfl, h⟩

/-! ## All documents -/

/-- The next document adds to what the others added. -/
theorem Contributions.concat {before : List Profile} {jsons : List Document}
    {parts : List (List Profile)} {json : Document} {part : List Profile}
    (h : Contributions hash feature prepare sequence before jsons parts)
    (hpart : Contributes hash feature prepare sequence (before ++ parts.flatten) json part) :
    Contributions hash feature prepare sequence before (jsons ++ [json]) (parts ++ [part]) := by
  induction h with
  | nil before => exact .cons (by simpa using hpart) (.nil _)
  | cons hhead _ ih => exact .cons hhead (ih (by simpa using hpart))

/-- A document without profiles adds nothing, whatever there is. -/
theorem Contributes.eq_nil {before : List Profile} {json : Document} {part : List Profile}
    (h : Contributes hash feature prepare sequence before json part)
    (hyields : yields hash feature json = false) :
    part = [] ∧ ∀ before', Contributes hash feature prepare sequence before' json [] := by
  unfold Contributes yields at *
  cases hparse : parse hash feature json with
  | error e =>
    rw [hparse] at h
    exact ⟨h, fun _ => rfl⟩
  | ok parser =>
    rw [hparse] at h hyields
    have hprofiles : parser.profiles = [] := by simpa using hyields
    obtain ⟨rows, targets, new, rfl, hrows, hresolved⟩ := h
    rw [hprofiles] at hrows hresolved
    cases hrows
    cases hresolved
    refine ⟨rfl, fun before' => ⟨[], [], [], rfl, ?_, ?_⟩⟩
    · rw [hprofiles]
      exact .nil
    · rw [hprofiles]
      exact .nil

/-- Documents without profiles add nothing. -/
theorem Contributions.of_forall_not_yields {before : List Profile} {jsons : List Document}
    {parts : List (List Profile)}
    (h : Contributions hash feature prepare sequence before jsons parts)
    (hyields : ∀ json ∈ jsons, yields hash feature json = false) :
    parts.flatten = [] ∧
      ∀ before', Contributions hash feature prepare sequence before' jsons parts := by
  induction h with
  | nil before => exact ⟨rfl, fun before' => .nil before'⟩
  | cons hhead _ ih =>
    obtain ⟨rfl, hsame⟩ := hhead.eq_nil (hyields _ List.mem_cons_self)
    obtain ⟨hflatten, hothers⟩ := ih fun json hjson => hyields json (List.mem_cons_of_mem _ hjson)
    exact ⟨by rw [List.flatten_cons, hflatten]; rfl, fun before' => .cons (hsame _) (hothers _)⟩

/-- The rows of the documents have new keys. -/
theorem Contributions.sequence_lt {before : List Profile} {jsons : List Document}
    {parts : List (List Profile)}
    (h : Contributions hash feature prepare sequence before jsons parts) :
    ∀ row ∈ parts.flatten, (sequence : ℤ) < row.id.toInt := by
  induction h with
  | nil before => exact fun row hrow => by cases hrow
  | @cons before json jsons part parts hhead _ ih =>
    intro row hrow
    rw [List.flatten_cons, List.mem_append] at hrow
    rcases hrow with hrow | hrow
    · unfold Contributes at hhead
      cases hparse : parse hash feature json with
      | error e =>
        rw [hparse] at hhead
        rw [hhead] at hrow
        cases hrow
      | ok parser =>
        rw [hparse] at hhead
        exact hhead.sequence_lt row hrow
    · exact ih row hrow

/-- The old rows that are left after some documents. -/
def keptRows (hash : HashOrder) (feature : Option Profile) (replace : Bool) (before : List Profile)
    (jsons : List Document) : List Profile :=
  if replace && jsons.any (yields hash feature) then [] else before

/-- The state after some documents, with the exceptions so far. -/
def ImportedSoFar (hash : HashOrder) (feature : Option Profile)
    (profiles : Option (LinkedMap String Profile)) (sequence : ℕ) (before : List Profile)
    (jsons : List Document) (es : List ImportException) (s : Heap LazyClear)
    (db : ProfileDatabase) : Prop :=
  es = jsons.filterMap (failure hash feature) ∧ ∃ parts,
    Contributions hash feature (prepared profiles) sequence
      (keptRows hash feature profiles.isSome before jsons) jsons parts ∧
    JsonParser.At sequence { initialized := profiles.isSome && jsons.any (yields hash feature) }
      (keptRows hash feature profiles.isSome before jsons ++ parts.flatten) [] s db

/-- A document that does not delete the old rows keeps what is left of them. -/
theorem base_eq {profiles : Option (LinkedMap String Profile)} {before : List Profile}
    {jsons : List Document} {parts : List (List Profile)} (json : Document)
    (h : Contributions hash feature prepare sequence
      (keptRows hash feature profiles.isSome before jsons) jsons parts) :
    base profiles (profiles.isSome && jsons.any (yields hash feature)) (yields hash feature json)
        (keptRows hash feature profiles.isSome before jsons ++ parts.flatten) =
      keptRows hash feature profiles.isSome before (jsons ++ [json]) ++ parts.flatten ∧
    Contributions hash feature prepare sequence
      (keptRows hash feature profiles.isSome before (jsons ++ [json])) jsons parts := by
  unfold base keptRows at *
  rw [List.any_append, List.any_cons, List.any_nil, Bool.or_false]
  cases hany : jsons.any (yields hash feature) with
  | true =>
    rw [hany] at h
    cases profiles with
    | none => exact ⟨rfl, h⟩
    | some m => exact ⟨rfl, h⟩
  | false =>
    rw [hany] at h
    have hnone : ∀ json ∈ jsons, yields hash feature json = false := by
      simpa using hany
    obtain ⟨hflatten, hsame⟩ := h.of_forall_not_yields hnone
    refine ⟨?_, hsame _⟩
    rw [hflatten]
    cases profiles with
    | none => simp
    | some m => simp

/-- One document after others. -/
theorem ensures_importDocument_next (profiles : Option (LinkedMap String Profile))
    (before : List Profile) (jsons : List Document) (json : Document)
    (es : List ImportException) :
    Session.Ensures ProfileDatabase.service
      (ImportedSoFar hash feature profiles sequence before jsons es)
      (importDocument hash feature profiles json)
      (fun _ => ImportedSoFar hash feature profiles sequence before (jsons ++ [json]) es)
      (fun e => ImportedSoFar hash feature profiles sequence before (jsons ++ [json])
        (es ++ [e])) := by
  rintro s db ⟨rfl, parts, hparts, hat⟩
  obtain ⟨hbase, hparts'⟩ := base_eq json hparts
  have hown : ∀ yield, ((profiles.isSome && jsons.any (yields hash feature)) ||
      (profiles.isSome && yield)) =
        (profiles.isSome && (jsons.any (yields hash feature) || yield)) := fun yield =>
    (Bool.and_or_distrib_left _ _ _).symm
  refine ((ensures_importDocument profiles json _ _).of_imp (fun _ _ h => h) ?_ ?_) s db hat
  · rintro _ s' db' ⟨hfailure, part, hpart, hat'⟩
    rw [hbase] at hpart hat'
    refine ⟨?_, parts ++ [part], hparts'.concat hpart, ?_⟩
    · rw [List.filterMap_append, List.filterMap_cons_none hfailure]
      simp
    · rw [hown] at hat'
      simpa using hat'
  · rintro e s' db' ⟨hfailure, hyields, hpart, hat'⟩
    have hkept : keptRows hash feature profiles.isSome before (jsons ++ [json]) =
        keptRows hash feature profiles.isSome before jsons := by
      simp [keptRows, hyields]
    rw [← hkept] at hpart hat'
    refine ⟨?_, parts ++ [[]], hparts'.concat hpart, ?_⟩
    · rw [List.filterMap_append, List.filterMap_cons_some hfailure]
      rfl
    · simpa [hyields] using hat'

/-- The main profile of `Core.currentProfile`. -/
theorem ensures_currentProfile (deviceProfile : Option ExpandedProfile) (profileId : Int64)
    (s₀ : Heap τ) (db : ProfileDatabase)
    {E : StorageException → Heap τ → ProfileDatabase → Prop} :
    Session.Ensures ProfileDatabase.service (fun s d => s = s₀ ∧ d = db)
      (currentProfile deviceProfile profileId)
      (fun expanded s d => expanded.map ExpandedProfile.main =
          (deviceProfile.map ExpandedProfile.main).or (db.table.get profileId) ∧
        s = s₀ ∧ d = db) E := by
  cases deviceProfile with
  | some expanded => exact Session.ensures_pure _ fun s d h => ⟨rfl, h⟩
  | none =>
    refine Session.ensures_bind (Q := fun profile s d => profile = db.table.get profileId ∧
      s = s₀ ∧ d = db) (Session.ensures_call _ ?_) fun profile => Session.ensures_of_fact ?_
    · rintro s d ⟨rfl, rfl⟩ -
      exact ⟨rfl, rfl, rfl⟩
    · intro hprofile
      cases profile with
      | none => exact Session.ensures_pure _ fun s d h => ⟨hprofile, h⟩
      | some profile =>
        refine Session.ensures_bind (Q := fun expanded s d => expanded.main = profile ∧
          s = s₀ ∧ d = db) ?_ fun expanded => Session.ensures_pure _ fun s d h => ?_
        · rw [expand]
          cases profile.udpFallback with
          | none => exact Session.ensures_pure _ fun s d h => ⟨rfl, h⟩
          | some id =>
            refine Session.ensures_bind (Q := fun _ s d => s = s₀ ∧ d = db)
              (Session.ensures_call _ fun s d h _ => h) fun udpFallback => ?_
            exact Session.ensures_pure _ fun s d h => ⟨rfl, h⟩
        · exact ⟨by rw [Option.map_some, h.1]; exact hprofile, h.2⟩

/-- What `importSettings` returns. -/
theorem ensures_importSettings (deviceProfile : Option ExpandedProfile) (profileId : Int64)
    (replace : Bool) (s₀ : Heap LazyClear) (db : ProfileDatabase)
    {E : StorageException → Heap LazyClear → ProfileDatabase → Prop} :
    Session.Ensures ProfileDatabase.service (fun s d => s = s₀ ∧ d = db)
      (importSettings deviceProfile profileId replace)
      (fun settings s d => settings = settingsOf deviceProfile profileId replace db.table ∧
        s = s₀ ∧ d = db) E := by
  cases replace with
  | true =>
    refine Session.ensures_bind (ensures_getAllProfiles (Q := fun all s d =>
      all = db.table.rows ∧ s = s₀ ∧ d = db) ?_) fun all => Session.ensures_pure _ ?_
    · rintro s d ⟨rfl, rfl⟩
      exact ⟨rfl, rfl, rfl⟩
    · rintro s d ⟨rfl, h⟩
      exact ⟨rfl, h⟩
  | false =>
    refine Session.ensures_bind (ensures_currentProfile deviceProfile profileId s₀ db)
      fun expanded => Session.ensures_pure _ fun s d h => ⟨?_, h.2⟩
    rw [h.1]
    rfl

/-- The documents after which the call returns or throws. -/
theorem ImportedSoFar.imported {profiles : Option (LinkedMap String Profile)} {db : ProfileDatabase}
    {jsons : List Document} {es : List ImportException} {s : Heap LazyClear} {d : ProfileDatabase}
    (h : ImportedSoFar hash feature profiles db.sequence db.table.rows jsons es s d)
    {result : Except (ImportException × List ImportException) Unit}
    (hresult : (es = [] ∧ result = .ok ()) ∨
      ∃ e es', es = e :: es' ∧ result = .error (e, es')) :
    Imported hash feature (prepared profiles) profiles.isSome db jsons result d.table.rows := by
  obtain ⟨hes, parts, hparts, hat⟩ := h
  refine ⟨⟨parts, hparts, hat.rows⟩, ?_, ?_, ?_, ?_, ?_⟩
  · intro hnone
    rw [hat.rows, (hparts.of_forall_not_yields hnone).1, List.append_nil, keptRows, if_neg]
    simpa using fun _ => hnone
  · rintro hsome ⟨json, hjson, hyields⟩ row hrow hmem
    have hany : jsons.any (yields hash feature) = true :=
      List.any_eq_true.mpr ⟨json, hjson, hyields⟩
    rw [hat.rows, keptRows, hsome, hany, Bool.and_true, if_pos rfl, List.nil_append] at hmem
    obtain ⟨row', hrow', hid⟩ := List.mem_map.mp hmem
    have hlt := hparts.sequence_lt row' hrow'
    have hle := db.key_le row hrow
    rw [hid] at hlt
    omega
  · intro hnone
    rw [hat.rows, keptRows, hnone, Bool.false_and, if_neg Bool.false_ne_true]
    exact List.prefix_append _ _
  · have hempty : es = [] ↔ ∀ json ∈ jsons, failure hash feature json = none := by
      rw [hes, List.filterMap_eq_nil_iff]
    constructor
    · rintro ⟨e, rfl⟩
      rcases hresult with ⟨-, hok⟩ | ⟨e', es', heq, -⟩
      · cases hok
      · by_contra hnot
        rw [hempty.mpr fun json hjson => ?_] at heq
        · cases heq
        · rw [← Option.not_isSome_iff_eq_none]
          exact fun hfail => hnot ⟨json, hjson, hfail⟩
    · rintro ⟨json, hjson, hfail⟩
      rcases hresult with ⟨hnil, -⟩ | ⟨e, es', -, rfl⟩
      · rw [hempty.mp hnil json hjson] at hfail
        cases hfail
      · exact ⟨_, rfl⟩
  · rintro e es' rfl
    rcases hresult with ⟨-, hok⟩ | ⟨e', es'', heq, herror⟩
    · cases hok
    · cases herror
      rw [← hes, heq]

end

/-- The variables before a call. -/
def importStart : Heap LazyClear := { objects := fun _ => {}, own := {} }

/-- **Import.** If the calls of the database succeed, `createProfilesFromJson` imports each document
as a whole or not at all, and throws in the end if there was one of the latter. -/
theorem createProfilesFromJson_imported (hash : HashOrder) (deviceProfile : Option ExpandedProfile)
    (profileId : Int64) (db : ProfileDatabase) (jsons : List Document) (replace : Bool)
    (hcalls : (createProfilesFromJson hash deviceProfile profileId jsons replace
      importStart).AllAccepted ProfileDatabase.service db) :
    ∃ result s db', (createProfilesFromJson hash deviceProfile profileId jsons replace
        importStart).exec ProfileDatabase.perform db = ((result, s), db') ∧
      Imported hash (settingsOf deviceProfile profileId replace db.table).2
        (prepared (settingsOf deviceProfile profileId replace db.table).1) replace db jsons result
        db'.table.rows := by
  obtain ⟨settings, hsettings⟩ : ∃ settings,
      settings = settingsOf deviceProfile profileId replace db.table := ⟨_, rfl⟩
  have hreplace : settings.1.isSome = replace := by
    rw [hsettings]
    cases replace with
    | true => rfl
    | false => rfl
  have h : Session.Ensures ProfileDatabase.service (fun s d => s = importStart ∧ d = db)
      (createProfilesFromJson hash deviceProfile profileId jsons replace)
      (fun _ => ImportedSoFar hash settings.2 settings.1 db.sequence db.table.rows jsons [])
      (fun e => ImportedSoFar hash settings.2 settings.1 db.sequence db.table.rows jsons
        (e.1 :: e.2)) := by
    refine Session.ensures_bind (Session.ensures_mapException
      (ensures_importSettings deviceProfile profileId replace importStart db))
      fun r => Session.ensures_of_fact fun hr => ?_
    rw [← hsettings] at hr
    subst hr
    refine (Session.ensures_forEachTry fun pre json post es _ =>
      ensures_importDocument_next r.1 db.table.rows pre json es).of_imp ?_
      (fun _ _ _ h => h) (fun _ _ _ h => h)
    rintro s d ⟨rfl, rfl⟩
    refine ⟨rfl, [], .nil _, le_rfl, ?_, ?_, fun row hrow => by cases hrow⟩
    · simp [importStart]
    · simp [keptRows]
  have houtcome := h importStart db ⟨rfl, rfl⟩ hcalls
  revert houtcome
  rcases hexec : (createProfilesFromJson hash deviceProfile profileId jsons replace
    importStart).exec ProfileDatabase.service.perform db with ⟨⟨e | _, s⟩, db'⟩
  · intro h
    refine ⟨.error e, s, db', hexec, ?_⟩
    rw [← hsettings, ← hreplace]
    exact ImportedSoFar.imported h (Or.inr ⟨e.1, e.2, rfl, rfl⟩)
  · intro h
    refine ⟨.ok (), s, db', hexec, ?_⟩
    rw [← hsettings, ← hreplace]
    exact ImportedSoFar.imported h (Or.inl ⟨rfl, rfl⟩)

/-- A profile with a fallback that no row matches. -/
def sampleJson : JsonElement :=
  .object [("server", .string "192.168.100.1"), ("server_port", .number "8388"),
    ("password", .string "new"), ("method", .string "aes-256-gcm"),
    ("udp_fallback", .object [("server", .string "192.168.100.2"), ("server_port", .number "8388"),
      ("password", .string "new"), ("method", .string "aes-256-gcm")])]

/-- The second document has two values, and the third one has options with a line break. -/
def sampleDocuments : List Document :=
  [⟨[.array [sampleJson]], .endDocument⟩, ⟨[.null, sampleJson], .endDocument⟩,
    ⟨[.object [("server", .string "192.168.100.1"), ("server_port", .number "8388"),
      ("password", .string "new"), ("method", .string "aes-256-gcm"), ("plugin", .string "obfs"),
      ("plugin_opts", .string "a=\n")]], .endDocument⟩]

/-- The old row is replaced by the rows of the first document, and the call throws. -/
theorem createProfilesFromJson_imported_sampleDocuments :
    ∃ result s db', (createProfilesFromJson .insertion none 1 sampleDocuments true importStart).exec
        ProfileDatabase.perform (.ofProfiles [{}]) = ((result, s), db') ∧
      Imported .insertion (some { id := 1 }) (copyStats (associateByAddress [{ id := 1 }])) true
        (.ofProfiles [{}]) sampleDocuments result db'.table.rows :=
  createProfilesFromJson_imported .insertion none 1 (.ofProfiles [{}]) sampleDocuments true
    (by decide +kernel)

end ProfileManager
