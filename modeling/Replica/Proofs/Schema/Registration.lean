/-
Replica.Proofs.Schema.Registration — what is on record after any registrations.

A catalog answers from two rows and the places of names in them, which every registration has
to change together. `Shows` says that they fit: the rows hold the models of a registry and what
each of them can do, and the place of a name is the first one in the row that has a model of
that name. A registration keeps this, accepted or refused (`Shows.perform_register`), and so
does any number of them (`Shows.registerEach`). Where it holds, every look-up in the catalog is
the one in the registry (`Shows.agrees`).

`AnswersFor` says which look-ups succeed on given models, and what the overlays among them are
laid over. `answersFor_accepted` is the statement: whatever is registered on a new catalog, and
whatever of it is refused, the catalog answers for the accepted models.
-/
import Replica.Proofs.Schema.Overlays
import Replica.Schema.Catalog

namespace Replica

namespace Registry

variable {r r' : Registry}

/-- Models that are all accepted stand at the end, in their order. -/
theorem registerAll_models {ms : List ModelSchema} (h : r.registerAll ms = .ok r') :
    r'.models = r.models ++ ms ∧ r'.version = r.version := by
  induction ms generalizing r with
  | nil =>
    cases h
    exact ⟨(List.append_nil _).symm, rfl⟩
  | cons m rest ih =>
    rw [registerAll] at h
    cases hm : r.register m with
    | error e =>
      rw [hm] at h
      cases h
    | ok next =>
      rw [hm] at h
      obtain ⟨hnext, hversion⟩ := register_models hm
      obtain ⟨hmodels, hsame⟩ := ih h
      refine ⟨?_, hsame.trans hversion⟩
      rw [hmodels, hnext, List.append_assoc]
      rfl

end Registry

namespace Catalog

variable {c : Catalog} {r : Registry}

/-! ## Rows and places -/

/-- The rows hold the models of a registry and what they can do, and the places are those of
the names in the rows. -/
structure Shows (c : Catalog) (r : Registry) : Prop where
  version : c.version = r.version
  models : c.models.toList = r.models
  derived : c.derived.toList = r.models.map ModelSchema.capabilities
  places : ∀ name, c.places.get? name = r.models.findIdx? (fun m => m.name = name)

/-- Every look-up in a catalog is that in a registry. -/
structure Agrees (c : Catalog) (r : Registry) : Prop where
  names : c.modelNames = r.modelNames
  contains : ∀ name, c.contains name = r.contains name
  get : ∀ name, c.get name = r.get name
  fieldsOf : ∀ name, c.fieldsOf name = r.fieldsOf name
  capabilities : ∀ name, c.capabilities name = r.capabilities name
  overlayTarget : ∀ name, c.overlayTarget? name = r.overlayTarget? name

theorem shows_ofVersion (version : String) :
    (ofVersion version).Shows (Registry.ofVersion version) :=
  ⟨rfl, rfl, rfl, fun _ => rfl⟩

namespace Shows

theorem contains_eq (h : c.Shows r) (name : String) : c.contains name = r.contains name := by
  rw [Catalog.contains, Dict.contains, h.places, List.findIdx?_isSome]
  rfl

/-- In both rows the place of a name has what the registry finds under the name. -/
theorem read_eq {α : Type} (h : c.Shows r) {row : Array α} {f : ModelSchema → α}
    (hrow : row.toList = r.models.map f) (name : String) :
    c.readAt row name = (r.get name).map f := by
  have hfound : ((c.places.get? name).bind fun place => row[place]?)
      = (r.find? name).map f := by
    rw [h.places, Registry.find?, List.find?_eq_bind_findIdx?_getElem?, Option.map_bind]
    congr 1
    funext place
    rw [← Array.getElem?_toList, hrow, List.getElem?_map]
    rfl
  rw [readAt, hfound, Registry.get]
  cases r.find? name <;> rfl

theorem get_eq (h : c.Shows r) (name : String) : c.get name = r.get name := by
  rw [Catalog.get, h.read_eq (f := id) (by rw [h.models, List.map_id])]
  cases r.get name <;> rfl

theorem agrees (h : c.Shows r) : c.Agrees r where
  names := by rw [Catalog.modelNames, h.models, Registry.modelNames]
  contains := h.contains_eq
  get := h.get_eq
  fieldsOf name := by rw [Catalog.fieldsOf, h.get_eq, Registry.fieldsOf]
  capabilities := h.read_eq h.derived
  overlayTarget name := by
    have hfind : ∀ name, (c.get name).toOption = r.find? name := by
      intro name
      rw [h.get_eq, Registry.get]
      cases r.find? name <;> rfl
    simp only [Catalog.overlayTarget?, Registry.overlayTarget?, hfind]

/-- A model with a new name goes to the end of both rows, and its name to the place there. -/
theorem added {r' : Registry} (h : c.Shows r) {m : ModelSchema} (hnew : m.name ∉ r.modelNames)
    (hmodels : r'.models = r.models ++ [m]) (hversion : r'.version = r.version) :
    Shows ⟨c.version, c.models.push m, c.derived.push m.capabilities,
      c.places.insert m.name c.models.size⟩ r' where
  version := h.version.trans hversion.symm
  models := by rw [Array.toList_push, h.models, hmodels]
  derived := by rw [Array.toList_push, h.derived, hmodels, List.map_append, List.map_singleton]
  places name := by
    have hsize : c.models.size = r.models.length := by
      rw [← h.models, Array.length_toList]
    rw [Dict.get?_insert, h.places, hmodels, List.findIdx?_append, List.findIdx?_singleton, hsize]
    by_cases hname : m.name = name
    · -- A new name has no place yet, so the one at the end is its first.
      have hnone : r.models.findIdx? (fun x => x.name = name) = none := by
        refine List.findIdx?_eq_none_iff.2 fun x hx => decide_eq_false fun hx' => hnew ?_
        exact List.mem_map.2 ⟨x, hx, hx'.trans hname.symm⟩
      simp [hname, hnone]
    · simp [hname]

/-! ## Registrations -/

/-- A registration goes as it does on the registry, and a catalog that refuses is left as it
was. -/
theorem perform_register (h : c.Shows r) (m : ModelSchema) :
    (∃ r' next, r.register m = .ok r' ∧ c.perform (register m) = (.ok (), next) ∧
        next.Shows r') ∨
      ∃ e, r.register m = .error e ∧ c.perform (register m) = (.error e, c) := by
  rw [Catalog.perform_register, Registry.register]
  by_cases hempty : m.name = "" ∨ m.plural = ""
  · exact .inr ⟨.emptyName, dif_pos hempty, if_pos hempty⟩
  · rw [dif_neg hempty, if_neg hempty]
    by_cases hword : isWord m.name = true
    · rw [dif_pos hword, if_neg (by simp [hword])]
      by_cases hknown : m.name ∈ r.modelNames
      · have hcontains : c.contains m.name = true :=
          (h.contains_eq _).trans (Registry.contains_iff.2 hknown)
        exact .inr ⟨.registeredTwice m.name, dif_pos hknown, if_pos hcontains⟩
      · have hcontains : ¬c.contains m.name = true := fun hc =>
          hknown (Registry.contains_iff.1 ((h.contains_eq _).symm.trans hc))
        exact .inl ⟨_, _, dif_neg hknown, if_neg hcontains, h.added hknown rfl rfl⟩
    · have hnot : isWord m.name = false := by simpa using hword
      exact .inr ⟨.notAnIdentifier m.name, dif_neg hword, if_pos hnot⟩

end Shows

/-- The models of the calls that were accepted. -/
def accepted (calls : List ModelSchema) (answers : List (Except SchemaError Unit)) :
    List ModelSchema :=
  ((calls.zip answers).filter fun call => call.2.isOk).map (·.1)

/-- Any registrations leave what registering the accepted models alone leaves. -/
theorem Shows.registerEach (h : c.Shows r) (calls : List ModelSchema) :
    ∃ answers left r', c.registerEach calls = (answers, left) ∧
      answers.length = calls.length ∧
      r.registerAll (accepted calls answers) = .ok r' ∧ left.Shows r' := by
  induction calls generalizing c r with
  | nil => exact ⟨[], c, r, rfl, rfl, rfl, h⟩
  | cons m rest ih =>
    rw [Catalog.registerEach]
    rcases h.perform_register m with ⟨r', next, hok, hperform, hnext⟩ | ⟨e, -, hperform⟩
    · obtain ⟨answers, left, last, heach, hlength, hall, hleft⟩ := ih hnext
      rw [hperform]
      refine ⟨.ok () :: answers, left, last, by simp only [heach], by simp [hlength], ?_, hleft⟩
      show (r.register m >>= fun next => next.registerAll (accepted rest answers)) = _
      rw [hok]
      exact hall
    · obtain ⟨answers, left, last, heach, hlength, hall, hleft⟩ := ih h
      rw [hperform]
      exact ⟨.error e :: answers, left, last, by simp only [heach], by simp [hlength], hall,
        hleft⟩

/-! ## Following overlays -/

/-- Going on from an overlay to its base ends, as names get shorter. -/
theorem follow_eq_none
    (hshorter : ∀ name base, c.overlayTarget? name = some base → base.name.length < name.length) :
    ∀ {steps : Nat} {name : String}, name.length < steps → c.follow steps name = none
  | steps + 1, name, hlength => by
    rw [follow]
    cases hbase : c.overlayTarget? name with
    | none => rfl
    | some base =>
      have hless := hshorter name base hbase
      exact follow_eq_none hshorter (by omega)

/-! ## The models on record -/

/-- A catalog has these models on record, each under its own name and no other, and takes a
further one exactly if its names are fit and new. -/
structure AnswersFor (c : Catalog) (models : List ModelSchema) : Prop where
  names : c.modelNames = models.map (·.name)
  distinct : c.modelNames.Nodup
  known : ∀ m ∈ models, c.contains m.name = true ∧ c.get m.name = .ok m ∧
    c.fieldsOf m.name = .ok m.fieldNames ∧ c.capabilities m.name = .ok m.capabilities
  unknown : ∀ name ∉ c.modelNames, c.contains name = false ∧
    c.get name = .error (.unknownModel name) ∧ c.fieldsOf name = .error (.unknownModel name) ∧
    c.capabilities name = .error (.unknownModel name)
  overlay : ∀ name base, c.overlayTarget? name = some base ↔
    base ∈ models ∧ name ∈ c.modelNames ∧ base.name ≠ "" ∧ name = base.name ++ "Locale"
  oneOverlay : ∀ base name other, (c.overlayTarget? name).map (·.name) = some base →
    (c.overlayTarget? other).map (·.name) = some base → name = other
  follow : ∀ name, c.follow (name.length + 1) name = none
  accepts : ∀ m, (c.perform (register m)).1 = .ok () ↔
    m.name ≠ "" ∧ m.plural ≠ "" ∧ isWord m.name = true ∧ m.name ∉ c.modelNames
  refuses : ∀ m e, (c.perform (register m)).1 = .error e → (c.perform (register m)).2 = c

namespace Agrees

variable {m : ModelSchema} {name : String}

theorem known (h : c.Agrees r) (hm : m ∈ r.models) :
    c.contains m.name = true ∧ c.get m.name = .ok m ∧ c.fieldsOf m.name = .ok m.fieldNames ∧
      c.capabilities m.name = .ok m.capabilities := by
  have hfound : r.get m.name = .ok m := Registry.get_of_mem hm
  refine ⟨?_, (h.get _).trans hfound, ?_, (h.capabilities _).trans (r.capabilities_of_mem hm)⟩
  · exact (h.contains _).trans (Registry.contains_iff.2 (List.mem_map_of_mem hm))
  · rw [h.fieldsOf, Registry.fieldsOf, hfound]
    rfl

theorem unknown (h : c.Agrees r) (hname : name ∉ r.modelNames) : c.contains name = false ∧
    c.get name = .error (.unknownModel name) ∧ c.fieldsOf name = .error (.unknownModel name) ∧
    c.capabilities name = .error (.unknownModel name) := by
  have hfound := Registry.get_unregistered hname
  refine ⟨?_, (h.get _).trans hfound, ?_,
    (h.capabilities _).trans (Registry.capabilities_unregistered hname)⟩
  · rw [h.contains, ← Bool.not_eq_true, Registry.contains_iff]
    exact hname
  · rw [h.fieldsOf, Registry.fieldsOf, hfound]
    rfl

/-- A base tells the name of its overlay. -/
theorem one_overlay (h : c.Agrees r) {base other : String}
    (hname : (c.overlayTarget? name).map (·.name) = some base)
    (hother : (c.overlayTarget? other).map (·.name) = some base) : name = other := by
  rw [h.overlayTarget] at hname hother
  obtain ⟨target, htarget, rfl⟩ := Option.map_eq_some_iff.1 hname
  obtain ⟨target', htarget', hsame⟩ := Option.map_eq_some_iff.1 hother
  rw [Registry.name_of_overlayTarget? htarget, Registry.name_of_overlayTarget? htarget', hsame]

/-- A model is taken exactly if its names are fit and its name is new. -/
theorem accepts_iff (h : c.Agrees r) : (c.perform (register m)).1 = .ok () ↔
    m.name ≠ "" ∧ m.plural ≠ "" ∧ isWord m.name = true ∧ m.name ∉ r.modelNames := by
  rw [← Registry.contains_iff, ← h.contains, Catalog.perform_register]
  by_cases hempty : m.name = "" ∨ m.plural = ""
  · simp only [if_pos hempty, reduceCtorEq, false_iff]
    exact fun ⟨hname, hplural, _⟩ => hempty.elim hname hplural
  · rw [if_neg hempty]
    by_cases hword : isWord m.name = true
    · by_cases hknown : c.contains m.name = true
      · simp [hword, hknown]
      · simpa [hword, hknown] using not_or.1 hempty
    · simp [hword]

end Agrees

theorem Shows.answersFor (h : c.Shows r) : c.AnswersFor r.models where
  names := h.agrees.names
  distinct := h.agrees.names ▸ r.distinct
  known _ hm := h.agrees.known hm
  unknown _ hname := h.agrees.unknown (h.agrees.names ▸ hname)
  overlay name base := by
    rw [h.agrees.overlayTarget, h.agrees.names, Registry.overlayTarget?_eq_some_iff]
    refine and_congr_right fun hbase => and_congr_right fun _ => ?_
    exact (and_iff_right (r.words _ hbase).1).symm
  oneOverlay _ _ _ hname hother := h.agrees.one_overlay hname hother
  follow name := by
    refine follow_eq_none (fun name base hbase => ?_) (Nat.lt_succ_self _)
    exact Registry.length_of_overlayTarget? (h.agrees.overlayTarget name ▸ hbase)
  accepts _ := h.agrees.names ▸ h.agrees.accepts_iff
  refuses m e he := by
    rcases h.perform_register m with ⟨_, _, -, hperform, -⟩ | ⟨_, -, hperform⟩
    · rw [hperform] at he
      cases he
    · rw [hperform]

/-- Whatever is registered on a new catalog, and whatever of it is refused, the catalog answers
for the accepted models in their order, as the registry of these models does. -/
theorem answersFor_accepted (version : String) (calls : List ModelSchema) :
    ∃ answers c r, (ofVersion version).registerEach calls = (answers, c) ∧
      answers.length = calls.length ∧ c.version = version ∧
      c.AnswersFor (accepted calls answers) ∧
      (Registry.ofVersion version).registerAll (accepted calls answers) = .ok r ∧ c.Agrees r := by
  obtain ⟨answers, c, r, heach, hlength, hall, hshows⟩ :=
    (shows_ofVersion version).registerEach calls
  obtain ⟨hmodels, hversion⟩ := Registry.registerAll_models hall
  have hmodels : r.models = accepted calls answers := hmodels
  refine ⟨answers, c, r, heach, hlength, hshows.version.trans hversion, ?_, hall, hshows.agrees⟩
  rw [← hmodels]
  exact hshows.answersFor

-- An overlay of an overlay is registered, between models that are refused for their names.
example : let (answers, c) := (ofVersion "v1").registerEach [.named "StickerLocale", .named "",
      .named "Sticker", .named "my sticker", (ModelSchema.named "Sticker").withPlural "Stickers",
      .named "StickerLocaleLocale"]
    answers.map Except.isOk = [true, false, true, false, false, true] ∧
    c.modelNames = ["StickerLocale", "Sticker", "StickerLocaleLocale"] ∧
    c.follow 2 "StickerLocaleLocale" = some "Sticker" ∧ c.follow 1 "Sticker" = none := by
  decide +kernel

end Catalog

end Replica
