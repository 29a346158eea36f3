import UTTG.Cache.Provenance
import UTTG.Python.Codec
import UTTG.Python.DateTime

/-!
# Response bodies from the loader and from the store

The call that computed a value hands it to the response serialiser as it is;
the calls served from the store hand over what `json.loads` reads.  The bodies
agree exactly when the value has no datetime and no split surrogate pair.
-/

namespace UTTG.Cache

open UTTG.Expiring UTTG.Transition UTTG.Python

/-- What a route loader returns: a value whose dictionaries have distinct
keys, with datetimes among its leaves. -/
structure Data (F : Type) where
  value : Value F DateTime
  distinct : Distinct value

section Codec

variable {F : Type} (format : FloatFormat F)

/-- `json.loads` on the stored text. -/
def loadsData (raw : Text) : Option (Data F) :=
  match hloads : (loads format raw : Option (Value F DateTime)) with
  | some value => some ⟨value, distinct_loads hloads⟩
  | none => none

/-- `json.dumps(value, default=str, separators=(",", ":"))`,
`len(serialized.encode())` and `json.loads`. -/
def jsonCodec : Codec (Data F) Text where
  dumps data := dumps format (fun value => some value.str) data.value
  size raw := ((encode raw).map List.length).getD 0
  loads := loadsData format

theorem loadsData_eq_some_iff {raw : Text} {data : Data F} :
    loadsData format raw = some data ↔
      loads format raw = some data.value := by
  unfold loadsData
  split
  · next value hloads =>
      constructor
      · intro hdata
        rw [← Option.some.inj hdata]
        exact hloads
      · intro hdata
        obtain ⟨read, hdistinct⟩ := data
        obtain rfl : value = read := Option.some.inj (hloads.symm.trans hdata)
        rfl
  · next hloads => simp [hloads]

/-- The data served for a value is what reading its text gives back. -/
theorem served_iff {config : Config} {value data : Data F} :
    Served config (jsonCodec format) value data ↔
      (∃ raw, Stores config (jsonCodec format) value raw) ∧
        data.value = readBack (fun value => some value.str) value.value := by
  constructor
  · rintro ⟨raw, hstores, hloads⟩
    have hread := (loadsData_eq_some_iff format).mp hloads
    rw [loads_dumps hstores.1] at hread
    exact ⟨⟨raw, hstores⟩, (Option.some.inj hread).symm⟩
  · rintro ⟨⟨raw, hstores⟩, hread⟩
    refine ⟨raw, hstores, (loadsData_eq_some_iff format).mpr ?_⟩
    rw [loads_dumps hstores.1, hread]

end Codec

/-! ## Bodies -/

section Bodies

variable {F : Type} {format : FloatFormat F}

/-- The response body as a document: strings as they are, datetimes as the
response serialiser renders them. -/
def Data.body (render : DateTime → Text) (data : Data F) : Value F Empty :=
  document render data.value

/-- ISO 8601 with a `T`, in any form of the time and of the zone. -/
def IsoRendering (render : DateTime → Text) : Prop :=
  ∀ value : DateTime, ∃ rest, render value = value.date ++ point 0x54 :: rest

theorem IsoRendering.differs {render : DateTime → Text}
    (hrender : IsoRendering render) :
    Differs render fun value => some value.str := by
  intro value
  obtain ⟨rest, hrest⟩ := hrender value
  refine ⟨value.str, rfl, ?_⟩
  rw [hrest]
  exact DateTime.joinPairs_str_ne (by decide) value rest

theorem body_of_served {config : Config} {render : DateTime → Text}
    (hrender : IsoRendering render) {value data : Data F}
    (hserved : Served config (jsonCodec format) value data) :
    data.body render = value.body render ↔ isWhole value.value = true := by
  rw [Data.body, Data.body, ((served_iff format).mp hserved).2]
  exact document_readBack hrender.differs value.value value.distinct

end Bodies

/-! ## Runs -/

section Runs

variable {Token Value Raw : Type*} [DecidableEq Token]

/-- One call leads and stores its value, another one is served at once. -/
def leadAndServe (leader served : Token) (value : Value) :
    List (Action Token Value) :=
  [.begin leader 60 300 0, .read leader false .answered,
    .compute leader value 0, .store leader .answered, .begin served 60 300 0,
    .read served false .answered]

/-- Every value that can be stored is served to some call in some run. -/
theorem exists_served {config : Config} {codec : Codec Value Raw}
    {leader served : Token} (hne : served ≠ leader) {value data : Value}
    (hserved : Served config codec value data) :
    ∃ state ∈ (system Token config codec).run blank
        (leadAndServe leader served value),
      state.loaded leader = some value ∧
      state.answer served = some (.returned data .fresh 0) ∧
      state.origin served = some (.store (some leader)) := by
  obtain ⟨raw, ⟨hdumps, hsize⟩, hloads⟩ := hserved
  have hfits := not_lt.mpr hsize
  have hlive : ¬(300 : ℚ) ≤ 0 := by norm_num
  simp [leadAndServe, System.run, system, step, blank, State.runRead, readLua,
    tryLock, Slot.setNx, Slot.exist, State.afterRead, State.goto,
    State.afterCompute, hdumps, hfits, State.runStore, storeLua, Slot.set,
    Slot.get_some, lockSeconds, hlive, State.afterStore, State.deliver, State.respond,
    Slot.del, hloads, hne, ReadState.elects, ReadState.freshness]

end Runs

/-! ## The same body for every call -/

section SameBodies

variable {F : Type}

/-- In every run, a call whose loader returned the value gets a response with
the body of that value, and so does every call that is served what it stored. -/
def SameBodies (Token : Type*) [DecidableEq Token] (config : Config)
    (format : FloatFormat F) (render : DateTime → Text) (value : Data F) :
    Prop :=
  ∀ state, (system Token config (jsonCodec format)).Reachable state →
    ∀ leader, state.loaded leader = some value →
      (∀ own freshness age,
        state.answer leader = some (.returned own freshness age) →
        state.origin leader = some .loader →
          own.body render = value.body render) ∧
      ∀ token data freshness age,
        state.answer token = some (.returned data freshness age) →
        state.origin token = some (.store (some leader)) →
          data.body render = value.body render

variable {Token : Type*} [DecidableEq Token] {config : Config}
variable {format : FloatFormat F} {render : DateTime → Text}

/-- The bodies agree exactly for the values that cannot be stored or have
neither a datetime nor a split pair. -/
theorem bodies_agree_iff [Nontrivial Token] (hrender : IsoRendering render)
    (value : Data F) :
    SameBodies Token config format render value ↔
      ((∃ raw, Stores config (jsonCodec format) value raw) →
        isWhole value.value = true) := by
  constructor
  · rintro hsame ⟨raw, hstores⟩
    obtain ⟨leader, token, hne⟩ := exists_pair_ne Token
    have hdata : Served config (jsonCodec format) value
        ⟨_, distinct_loads (loads_dumps hstores.1)⟩ :=
      (served_iff format).mpr ⟨⟨raw, hstores⟩, rfl⟩
    obtain ⟨state, hrun, hloaded, hanswer, horigin⟩ :=
      exists_served hne.symm hdata
    have hreach := System.reachable_of_run (blank_init config _) hrun
    have hbody := (hsame state hreach leader hloaded).2 token _ _ _ hanswer
      horigin
    exact (body_of_served hrender hdata).mp hbody
  · intro hwhole state hreach leader hloaded
    have htraced := traced_of_reachable hreach
    constructor
    · intro own freshness age hanswer horigin
      obtain ⟨origin, hsource, haccounted⟩ :=
        htraced.answers leader own freshness age hanswer
      obtain rfl : origin = .loader := by simpa [horigin] using hsource.symm
      obtain rfl : value = own := by simpa [Accounted, hloaded] using haccounted
      rfl
    · intro token data freshness age hanswer horigin
      obtain ⟨origin, hsource, haccounted⟩ :=
        htraced.answers token data freshness age hanswer
      obtain rfl : origin = .store (some leader) := by
        simpa [horigin] using hsource.symm
      obtain ⟨stored, hstored, hserved⟩ := haccounted
      obtain rfl : value = stored := by simpa [hloaded] using hstored
      have hstores := ((served_iff format).mp hserved).1
      exact (body_of_served hrender hserved).mpr (hwhole hstores)

end SameBodies

/-- A tenth of a second past noon. -/
def noon : DateTime := ⟨2026, 7, 1, 12, 0, 0, 100000, 0⟩

def updatedAt (value : Value Empty DateTime) (hdistinct : Distinct value) :
    Data Empty :=
  ⟨.dict [(text "updated_at", value)], List.nodup_singleton _, hdistinct,
    trivial⟩

theorem isoformat_isoRendering :
    IsoRendering (DateTime.isoformat (point 0x54)) :=
  fun value => ⟨value.time, rfl⟩

/-- A value with a datetime has another body when it is served from the
store. -/
theorem datetime_bodies_differ :
    ¬SameBodies (Fin 2) plainConfig FloatFormat.empty
      (DateTime.isoformat (point 0x54)) (updatedAt (.other noon) trivial) := by
  intro hsame
  have hserved : Served plainConfig (jsonCodec .empty)
      (updatedAt (.other noon) trivial)
      (updatedAt (.str noon.str) trivial) := by
    refine (served_iff .empty).mpr ⟨⟨_, rfl, by decide +kernel⟩, ?_⟩
    rfl
  obtain ⟨state, hrun, hloaded, hanswer, horigin⟩ :=
    exists_served (show (1 : Fin 2) ≠ 0 by decide) hserved
  have hreach := System.reachable_of_run (blank_init plainConfig _) hrun
  have hbody := (hsame state hreach 0 hloaded).2 1 _ _ _ hanswer horigin
  have hwhole := (body_of_served isoformat_isoRendering hserved).mp hbody
  exact Bool.false_ne_true hwhole

/-- The date written as a string keeps its body. -/
theorem string_bodies_agree :
    SameBodies (Fin 2) plainConfig FloatFormat.empty
      (DateTime.isoformat (point 0x54))
      (updatedAt (.str (text "2026-07-01")) trivial) :=
  (bodies_agree_iff isoformat_isoRendering _).mpr fun _ => by decide

end UTTG.Cache
