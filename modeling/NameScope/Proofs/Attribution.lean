import NameScope.Proofs.Addressing
import NameScope.Proofs.Titles

/-!
# Titles are enough

A session without numbers goes along with an attributed session, instruction by instruction,
and reports the same (`Attributed.Coherent.run`). The step goes verdict by verdict
(`Attributed.Coherent.carryOut`): to give out a name and to bind it are the only changes, and
both are seen in the titles (`Attributed.Coherent.titled_issued`,
`Attributed.Coherent.titled_enrolled`). Nor does it narrow what can be done to go by titles
(`Attributed.Coherent.exists_run`).
-/

namespace NameScope

namespace Attributed

variable {attributed : Attributed}

/-! ## Names and titles -/

theorem Coherent.handle?_title (coherent : attributed.Coherent) {handle : Handle}
    (given : handle ∈ attributed.session.ledger.handles) :
    attributed.handle? (attributed.title handle) = some handle := by
  obtain ⟨place, inside, rfl⟩ := List.mem_iff_getElem.mp given
  have inside' : place < attributed.titles.length := by
    unfold titles
    rwa [List.length_map]
  have here : attributed.titles[place] =
      attributed.title attributed.session.ledger.handles[place] := List.getElem_map _
  unfold handle?
  rw [← here, coherent.distinct.idxOf_getElem]
  exact List.getElem?_eq_getElem inside

theorem handle?_eq_none {title : Title} (unknown : title ∉ attributed.titles) :
    attributed.handle? title = none := by
  unfold handle?
  rw [List.idxOf_eq_length unknown]
  unfold titles
  rw [List.length_map]
  exact List.getElem?_eq_none (Nat.le_refl _)

theorem mem_titles_iff {title : Title} :
    title ∈ attributed.titles ↔
      ∃ handle ∈ attributed.session.ledger.handles, attributed.title handle = title :=
  List.mem_map

theorem Coherent.title_inj (coherent : attributed.Coherent) {handle other : Handle}
    (given : handle ∈ attributed.session.ledger.handles)
    (given' : other ∈ attributed.session.ledger.handles) :
    attributed.title handle = attributed.title other ↔ handle = other := by
  refine ⟨fun same => ?_, fun same => same ▸ rfl⟩
  have here := coherent.handle?_title given
  rw [same, coherent.handle?_title given'] at here
  exact (Option.some.inj here).symm

theorem Coherent.binding?_title (coherent : attributed.Coherent) {handle : Handle}
    (given : handle ∈ attributed.session.ledger.handles) :
    attributed.titled.binding? (attributed.title handle) =
      attributed.session.ledger.binding? handle := by
  show (attributed.handle? _).bind _ = _
  rw [coherent.handle?_title given]
  rfl

theorem binding?_eq_none {title : Title} (unknown : title ∉ attributed.titles) :
    attributed.titled.binding? title = none := by
  show (attributed.handle? _).bind _ = _
  rw [handle?_eq_none unknown]
  rfl

/-- What a registry holds was given out. -/
theorem Coherent.given (coherent : attributed.Coherent) {registry : Registry}
    (among : registry ∈ attributed.session.registries) {handle : Handle}
    (held : handle ∈ registry.handles) : handle ∈ attributed.session.ledger.handles := by
  obtain ⟨binding, bound⟩ := (coherent.grouped registry among).bound held
  exact coherent.sound.issued handle binding bound

/-- Every name can be referred to by its title. -/
theorem Coherent.operation_registerName (coherent : attributed.Coherent) {handle : Handle}
    (given : handle ∈ attributed.session.ledger.handles) (number : Nat) (value : Value) :
    attributed.operation (.ask number (.registerName (attributed.title handle) value)) =
      .registerName number handle.id value := by
  have here := coherent.handle?_title given
  unfold handle? at here
  exact congrArg (Operation.registerName number · value) (coherent.sound.id_eq here).symm

/-- Selections of all that a registry has bound are the same by titles. -/
theorem Coherent.values_eq (coherent : attributed.Coherent) (number : Nat) :
    attributed.values number = attributed.titled.values number := by
  have there : attributed.titled.registries[number]? =
      attributed.session.registries[number]?.map attributed.titledRegistry := List.getElem?_map
  unfold values Titled.Session.values
  rw [there]
  cases here : attributed.session.registries[number]? with
  | none => rfl
  | some registry =>
      have grouped := coherent.grouped registry (List.mem_of_getElem? here)
      show registry.selection.groups.entries.map _ = (registry.bound.entries.map _).map _
      rw [grouped.groups_selection, List.map_map, List.map_map]
      refine List.map_congr_left fun entry among => ?_
      exact congrArg (Prod.mk entry.1) OrderedMap.values_mapValues.symm

/-- Registries look the same by their titles if the titles of what they hold are. -/
theorem titledRegistry_congr {later : Attributed} {registry : Registry}
    (same : ∀ handle ∈ registry.handles, later.title handle = attributed.title handle) :
    later.titledRegistry registry = attributed.titledRegistry registry := by
  unfold titledRegistry
  have groups : registry.bound.mapValues (·.mapValues later.title) =
      registry.bound.mapValues (·.mapValues attributed.title) :=
    OrderedMap.mapValues_congr fun group held => OrderedMap.mapValues_congr fun handle among =>
      same handle (List.mem_flatMap.mpr ⟨group, held, among⟩)
  rw [groups]

@[simp] theorem titledRegistry_find? (registry : Registry) (stem : String) (key : Key) :
    (attributed.titledRegistry registry).find? stem key =
      (registry.find? stem key).map attributed.title :=
  OrderedMap.get?_mapValues_groups stem key

theorem titledRegistry_record (registry : Registry) (stem : String) (key : Key)
    (handle : Handle) :
    attributed.titledRegistry (registry.record stem key handle) =
      (attributed.titledRegistry registry).record stem key (attributed.title handle) := by
  unfold titledRegistry Titled.Registry.record Registry.record
  rw [OrderedMap.mapValues_insert_groups stem key handle]

/-- Putting back a desk changes one registry, also by titles. -/
theorem Coherent.registries_put (coherent : attributed.Coherent) {later : Attributed}
    {number : Nat} {registry : Registry} {desk : Desk}
    {change : Titled.Registry → Titled.Registry}
    (here : attributed.session.registries[number]? = some registry)
    (put : later.session = attributed.session.put number desk)
    (same : ∀ handle ∈ attributed.session.ledger.handles,
      later.title handle = attributed.title handle)
    (changed : later.titledRegistry desk.registry = change (attributed.titledRegistry registry)) :
    later.titled.registries = attributed.titled.registries.modify number change := by
  apply List.ext_getElem?
  intro place
  show (later.session.registries.map _)[place]? =
    ((attributed.session.registries.map _).modify _ _)[place]?
  rw [List.getElem?_map, List.getElem?_modify, List.getElem?_map, put, Session.getElem?_put here]
  by_cases ours : place = number
  · subst ours
    rw [if_pos rfl, here]
    simp [changed]
  · rw [if_neg ours]
    cases there : attributed.session.registries[place]? with
    | none => rfl
    | some other =>
        have among := List.mem_of_getElem? there
        simp [Ne.symm ours,
          titledRegistry_congr fun handle held => same handle (coherent.given among held)]

/-! ## Giving out a name -/

section Issue

variable {number : Nat} {registry : Registry} {stem : String}

/-- The session after a name has been given out. -/
def issued (attributed : Attributed) (number : Nat) (registry : Registry) (stem : String) :
    Attributed :=
  ⟨attributed.session.put number ((attributed.session.desk registry).issue stem),
    attributed.issuers ++ [number]⟩

theorem Coherent.title_issued (coherent : attributed.Coherent) {handle : Handle}
    (given : handle ∈ attributed.session.ledger.handles) :
    (attributed.issued number registry stem).title handle = attributed.title handle := by
  unfold title issued
  rw [List.getElem?_append_left]
  rw [coherent.issuers]
  exact coherent.sound.id_lt given

theorem Coherent.title_next (coherent : attributed.Coherent) :
    (attributed.issued number registry stem).title
        ((attributed.session.desk registry).nextHandle stem) =
      (attributed.titledRegistry registry).nextTitle number stem := by
  unfold title issued Desk.nextHandle Titled.Registry.nextTitle
  simp only [Session.desk_ledger, ← coherent.issuers, List.getElem?_concat_length]
  rfl

theorem Coherent.titles_issued (coherent : attributed.Coherent) :
    (attributed.issued number registry stem).titles =
      attributed.titles ++ [(attributed.titledRegistry registry).nextTitle number stem] := by
  show (attributed.session.ledger.handles ++ [_]).map _ = _
  rw [List.map_append, List.map_singleton, coherent.title_next]
  exact congrArg (· ++ _) (List.map_congr_left fun handle given => coherent.title_issued given)

/-- The title of the next name has not been used. -/
theorem Coherent.nextTitle_not_mem (coherent : attributed.Coherent)
    (here : attributed.session.registries[number]? = some registry) :
    (attributed.titledRegistry registry).nextTitle number stem ∉ attributed.titles := by
  intro used
  obtain ⟨index, same, below⟩ := coherent.numbered _ used
  have below : index < attributed.session.next number stem := below
  rw [Session.next_of_some here] at below
  have equal : registry.allocator.next stem = index := Allocator.identAt_inj.mp same
  exact absurd equal (Nat.ne_of_gt below)

theorem Coherent.issued (coherent : attributed.Coherent)
    (here : attributed.session.registries[number]? = some registry)
    (admitted : registry.allocator.admits stem = true) :
    (attributed.issued number registry stem).Coherent := by
  have change : Session.Change attributed.session
    (attributed.issued number registry stem).session := .issued stem here admitted
  have counters : ∀ other question, (attributed.issued number registry stem).session.next other
      question = if other = number ∧ question = stem then attributed.session.next number stem + 1
        else attributed.session.next other question :=
    Session.next_put_advance here stem rfl
  refine ⟨change.sound coherent.sound, change.grouped coherent.grouped, ?_, ?_, ?_⟩
  · show (attributed.issuers ++ [number]).length = (attributed.session.ledger.handles ++ [_]).length
    rw [List.length_append, List.length_append, coherent.issuers]
    rfl
  · rw [coherent.titles_issued]
    intro title held
    rcases List.mem_append.mp held with old | new
    · obtain ⟨index, same, below⟩ := coherent.numbered title old
      refine ⟨index, same, below.trans_le ?_⟩
      rw [counters]
      split
      · rename_i ours
        rw [ours.1, ours.2]
        exact Nat.le_succ _
      · exact Nat.le_refl _
    · rw [List.mem_singleton.mp new]
      refine ⟨registry.allocator.next stem, rfl, ?_⟩
      rw [counters, if_pos ⟨rfl, rfl⟩, Session.next_of_some here]
      exact Nat.lt_succ_self _
  · rw [coherent.titles_issued]
    exact coherent.distinct.append (List.nodup_singleton _)
      (List.disjoint_singleton.mpr (coherent.nextTitle_not_mem here))

theorem Coherent.titled_issued (coherent : attributed.Coherent)
    (here : attributed.session.registries[number]? = some registry)
    (admitted : registry.allocator.admits stem = true) :
    (attributed.issued number registry stem).titled =
      attributed.titled.issue number
        ((attributed.titledRegistry registry).nextTitle number stem) := by
  have same : ∀ handle ∈ attributed.session.ledger.handles,
      (attributed.issued number registry stem).title handle = attributed.title handle :=
    fun handle given => coherent.title_issued given
  have next := coherent.issued here admitted
  apply Titled.Session.ext
  · refine coherent.registries_put here rfl same ?_
    have held := titledRegistry_congr fun handle held =>
      same handle (coherent.given (List.mem_of_getElem? here) held)
    exact congrArg (fun registry : Titled.Registry => registry.advance stem) held
  · exact coherent.titles_issued
  · funext title
    show _ = attributed.titled.binding? title
    by_cases used : title ∈ attributed.titles
    · obtain ⟨handle, given, rfl⟩ := mem_titles_iff.mp used
      rw [coherent.binding?_title given, ← same handle given]
      exact next.binding?_title (List.mem_append_left _ given)
    · rw [binding?_eq_none used]
      by_cases ours : title = (attributed.titledRegistry registry).nextTitle number stem
      · rw [ours, ← coherent.title_next]
        rw [next.binding?_title (List.mem_append_right _ (List.mem_singleton.mpr rfl))]
        exact coherent.sound.binding?_next rfl
      · apply binding?_eq_none
        rw [coherent.titles_issued, List.mem_append, List.mem_singleton, not_or]
        exact ⟨used, ours⟩
  · rfl

end Issue

/-! ## Binding a name -/

section Enroll

variable {number : Nat} {registry : Registry} {handle : Handle} {key : Key} {ref : Ref}
  {value : Value}

/-- The session after a name has been bound. -/
def enrolled (attributed : Attributed) (number : Nat) (registry : Registry) (handle : Handle)
    (key : Key) (ref : Ref) (value : Value) : Attributed :=
  ⟨attributed.session.put number ((attributed.session.desk registry).enroll handle key ref value),
    attributed.issuers⟩

theorem Coherent.enrolled (coherent : attributed.Coherent)
    (here : attributed.session.registries[number]? = some registry)
    (given : handle ∈ attributed.session.ledger.handles)
    (unbound : attributed.session.ledger.binding? handle = none) (present : value.ref? = some ref)
    (new : registry.find? handle.stem (Request.keyOf value ref) = none) :
    (attributed.enrolled number registry handle (Request.keyOf value ref) ref value).Coherent := by
  have change : Session.Change attributed.session
      (attributed.enrolled number registry handle (Request.keyOf value ref) ref value).session :=
    .enrolled here given unbound present new
  refine ⟨change.sound coherent.sound, change.grouped coherent.grouped, coherent.issuers, ?_,
    coherent.distinct⟩
  intro title held
  obtain ⟨index, same, below⟩ := coherent.numbered title held
  refine ⟨index, same, ?_⟩
  show index < (attributed.session.put number _).next _ _
  rw [Session.next_put here]
  split
  · rename_i ours
    rw [ours, Session.next_of_some here] at below
    exact below
  · exact below

theorem Coherent.titled_enrolled (coherent : attributed.Coherent)
    (here : attributed.session.registries[number]? = some registry)
    (given : handle ∈ attributed.session.ledger.handles)
    (unbound : attributed.session.ledger.binding? handle = none) (present : value.ref? = some ref)
    (new : registry.find? handle.stem (Request.keyOf value ref) = none) :
    (attributed.enrolled number registry handle (Request.keyOf value ref) ref value).titled =
      attributed.titled.enroll number registry.table (attributed.title handle)
        (Request.keyOf value ref) ref value := by
  have later := coherent.enrolled here given unbound present new
  apply Titled.Session.ext
  · exact coherent.registries_put here rfl (fun _ _ => rfl) (titledRegistry_record ..)
  · rfl
  · funext title
    by_cases used : title ∈ attributed.titles
    · obtain ⟨other, given', rfl⟩ := mem_titles_iff.mp used
      refine (later.binding?_title given').trans ?_
      refine ((attributed.session.desk registry).binding?_enroll
        (Request.keyOf value ref) other).trans ?_
      show _ = if _ then _ else attributed.titled.binding? (attributed.title other)
      simp only [coherent.title_inj given' given, coherent.binding?_title given']
      rfl
    · have apart : title ≠ attributed.title handle := by
        rintro rfl
        exact used (mem_titles_iff.mpr ⟨handle, given, rfl⟩)
      have absent : (attributed.enrolled number registry handle (Request.keyOf value ref) ref
        value).titled.binding? title = none := binding?_eq_none used
      rw [absent]
      show _ = if _ then _ else attributed.titled.binding? title
      rw [if_neg apart, binding?_eq_none used]
  · funext place
    exact (attributed.session.desk registry).table_enroll (Request.keyOf value ref) place

end Enroll

/-! ## Instructions -/

/-- The names that are added come from the registry that was asked. -/
theorem follow_of_grown {later : Session} {more : List Handle}
    (grown : later.ledger.handles = attributed.session.ledger.handles ++ more) (number : Nat)
    (request : Request Title) :
    attributed.follow later (.ask number request) =
      ⟨later, attributed.issuers ++ List.replicate more.length number⟩ := by
  show Attributed.mk later _ = _
  rw [grown, List.length_append, Nat.add_sub_cancel_left]

theorem follow_self (number : Nat) (request : Request Title) :
    attributed.follow attributed.session (.ask number request) = attributed := by
  rw [follow_of_grown (List.append_nil _).symm]
  show Attributed.mk _ (attributed.issuers ++ []) = _
  rw [List.append_nil]

/-- What an instruction has come to: the names in the reply were given out, and without
numbers it is the same. -/
structure Matches (later : Attributed) (reply : Reply Handle)
    (titled : Reply Title × Titled.Session) : Prop where
  coherent : later.Coherent
  given : ∀ handle ∈ reply.names, handle ∈ later.session.ledger.handles
  reply : reply.map later.title = titled.1
  titled : later.titled = titled.2

theorem Coherent.carryOut (coherent : attributed.Coherent) {number : Nat} {registry : Registry}
    (here : attributed.session.registries[number]? = some registry) (request : Request Title)
    {verdict : Verdict Handle} {stem : String}
    (fits : verdict.Fits (attributed.session.outlook registry) stem) :
    Matches
      (attributed.follow (attributed.session.carryOut number registry verdict).2
        (.ask number request))
      (attributed.session.carryOut number registry verdict).1
      (attributed.titled.carryOut number (attributed.titledRegistry registry)
        (verdict.map attributed.title)) := by
  have among := List.mem_of_getElem? here
  cases verdict with
  | reply answer =>
      show Matches (attributed.follow attributed.session _) _ _
      rw [follow_self]
      refine ⟨coherent, fun handle named => ?_, rfl, rfl⟩
      obtain ⟨key, found⟩ := fits handle named
      exact coherent.given among (Registry.mem_handles_iff.mpr ⟨stem, key, found⟩)
  | issue asked =>
      obtain ⟨rfl, admitted⟩ := fits
      show Matches (attributed.follow (attributed.session.put _ _) _) _ _
      rw [follow_of_grown rfl]
      refine ⟨coherent.issued here admitted, fun handle named => ?_,
        congrArg Reply.name coherent.title_next, coherent.titled_issued here admitted⟩
      rw [List.mem_singleton.mp named]
      exact List.mem_append_right _ (List.mem_singleton.mpr rfl)
  | enroll handle key ref value =>
      obtain ⟨rfl, isBound?, new, present, rfl⟩ := fits
      have given : handle ∈ attributed.session.ledger.handles := by
        by_contra strange
        have unknown : (attributed.session.outlook registry).isBound? handle = none :=
          if_neg strange
        exact absurd (unknown.symm.trans isBound?) (by simp)
      have unbound : attributed.session.ledger.binding? handle = none := by
        have known : (attributed.session.outlook registry).isBound? handle =
          some (attributed.session.ledger.binding? handle).isSome := if_pos given
        have isSome := Option.some.inj (known.symm.trans isBound?)
        exact Option.not_isSome_iff_eq_none.mp (by simp [isSome])
      have same : attributed.follow (attributed.session.carryOut number registry
            (.enroll handle (Request.keyOf value ref) ref value)).2 (.ask number request) =
          attributed.enrolled number registry handle (Request.keyOf value ref) ref value := by
        have kept : (attributed.session.carryOut number registry
            (.enroll handle (Request.keyOf value ref) ref value)).2.ledger.handles =
              attributed.session.ledger.handles ++ [] := (List.append_nil _).symm
        rw [follow_of_grown kept]
        exact congrArg (Attributed.mk _) (List.append_nil _)
      rw [same]
      refine ⟨coherent.enrolled here given unbound present new, fun other named => ?_, rfl,
        coherent.titled_enrolled here given unbound present new⟩
      rw [List.mem_singleton.mp named]
      exact given
  | enter asked key ref value =>
      obtain ⟨rfl, admitted, new, present, rfl⟩ := fits
      -- the name is given out first, which is a session of its own
      have first := coherent.issued here admitted
      have here' := Session.getElem?_put_self here ((attributed.session.desk registry).issue asked)
      have given : (attributed.session.desk registry).nextHandle asked ∈
          (attributed.issued number registry asked).session.ledger.handles :=
        List.mem_append_right _ (List.mem_singleton.mpr rfl)
      have unbound : (attributed.issued number registry asked).session.ledger.binding?
          ((attributed.session.desk registry).nextHandle asked) = none :=
        coherent.sound.binding?_next rfl
      have both : attributed.follow (attributed.session.carryOut number registry
            (.enter asked (Request.keyOf value ref) ref value)).2 (.ask number request) =
          (attributed.issued number registry asked).enrolled number
            ((attributed.session.desk registry).issue asked).registry
            ((attributed.session.desk registry).nextHandle asked) (Request.keyOf value ref) ref
            value := by
        rw [follow_of_grown rfl]
        unfold Attributed.enrolled Attributed.issued
        rw [Session.put_put]
        rfl
      rw [both]
      refine ⟨first.enrolled here' given unbound present new, fun other named => ?_,
        congrArg Reply.name coherent.title_next, ?_⟩
      · rw [List.mem_singleton.mp named]
        exact given
      · rw [first.titled_enrolled here' given unbound present new, coherent.title_next,
          coherent.titled_issued here admitted]
        rfl

/-- The registry sees the same by titles. -/
theorem Coherent.outlook (coherent : attributed.Coherent) (registry : Registry)
    {request : Request Handle}
    (given : ∀ handle value, request = .registerName handle value →
      handle ∈ attributed.session.ledger.handles) :
    Outlook.Agree attributed.title (attributed.session.outlook registry)
      (attributed.titled.outlook (attributed.titledRegistry registry)) request := by
  refine ⟨rfl, fun key => titledRegistry_find? registry _ key, fun handle value isName => ?_⟩
  have known := given handle value isName
  refine ⟨?_, rfl, rfl⟩
  show (if _ then some (attributed.titled.binding? (attributed.title handle)).isSome else none) =
    if _ then some (attributed.session.ledger.binding? handle).isSome else none
  have titled : attributed.title handle ∈ attributed.titled.titles :=
    mem_titles_iff.mpr ⟨handle, known, rfl⟩
  rw [if_pos known, if_pos titled, coherent.binding?_title known]

/-- What a registry is asked by titles it may be asked by names, if these are there. -/
theorem Coherent.ask (coherent : attributed.Coherent) (number : Nat) (request : Request Handle)
    (given : ∀ handle value, request = .registerName handle value →
      handle ∈ attributed.session.ledger.handles)
    (meant : attributed.session.perform
        (attributed.operation (.ask number (request.map attributed.title))) =
      attributed.session.perform (Session.asking number request)) :
    Matches (attributed.perform (.ask number (request.map attributed.title))).2
      (attributed.perform (.ask number (request.map attributed.title))).1
      (attributed.titled.perform (.ask number (request.map attributed.title))) := by
  have there : attributed.titled.registries[number]? =
      attributed.session.registries[number]?.map attributed.titledRegistry := List.getElem?_map
  unfold perform
  rw [meant]
  cases here : attributed.session.registries[number]? with
  | none =>
      rw [here] at there
      rw [Session.perform_asking_of_none here, Titled.Session.perform_ask_of_none _ there]
      simp only [follow_self]
      exact ⟨coherent, fun handle named => absurd named List.not_mem_nil, rfl, rfl⟩
  | some registry =>
      rw [here] at there
      have judged := Session.perform_judged coherent.sound here request given
      have reply := congrArg Prod.fst judged
      have later := congrArg Prod.snd judged
      simp only [Prod.map_fst, Prod.map_snd, id_eq] at reply later
      rw [Titled.Session.perform_ask _ there, Request.judge_map (coherent.outlook registry given)]
      simp only [reply, later]
      exact coherent.carryOut here _ (Request.fits_judge _ _)

/-- A registry that is asked for a name which is not there answers nothing. -/
theorem Coherent.ask_unknown (coherent : attributed.Coherent) (number : Nat) {title : Title}
    (value : Value) (unknown : title ∉ attributed.titles) :
    Matches (attributed.perform (.ask number (.registerName title value))).2
      (attributed.perform (.ask number (.registerName title value))).1
      (attributed.titled.perform (.ask number (.registerName title value))) := by
  have absent := handle?_eq_none unknown
  unfold handle? at absent
  have idle : attributed.session.perform
      (attributed.operation (.ask number (.registerName title value))) =
        (.unknown, attributed.session) := by
    simp only [operation, Session.perform, absent]
  have idle' : attributed.titled.perform (.ask number (.registerName title value)) =
      (.unknown, attributed.titled) := by
    cases there : attributed.titled.registries[number]? with
    | none => exact Titled.Session.perform_ask_of_none _ there _
    | some registry =>
        have strange : (attributed.titled.outlook registry).isBound? title = none :=
          if_neg unknown
        rw [Titled.Session.perform_ask _ there]
        simp only [Request.judge, strange]
        rfl
  unfold perform
  rw [idle, idle']
  simp only [follow_self]
  exact ⟨coherent, fun handle named => absurd named List.not_mem_nil, rfl, rfl⟩

/-- **One instruction.** -/
theorem Coherent.perform (coherent : attributed.Coherent) (instruction : Instruction) :
    Matches (attributed.perform instruction).2 (attributed.perform instruction).1
      (attributed.titled.perform instruction) := by
  cases instruction with
  | openRegistry table scope style =>
      have change : Session.Change attributed.session
          (attributed.perform (.openRegistry table scope style)).2.session :=
        .opened scope table style
      refine ⟨⟨change.sound coherent.sound, change.grouped coherent.grouped, coherent.issuers, ?_,
        coherent.distinct⟩, fun handle named => absurd named List.not_mem_nil, ?_, ?_⟩
      · intro title held
        obtain ⟨index, same, below⟩ := coherent.numbered title held
        exact ⟨index, same, (Session.next_opened scope table style title.stem).symm ▸ below⟩
      · show Reply.opened attributed.session.registries.length =
          Reply.opened (attributed.session.registries.map _).length
        rw [List.length_map]
      · apply Titled.Session.ext
        · exact List.map_append
        · rfl
        · rfl
        · rfl
  | ask number request =>
      cases request with
      | newName stem => exact coherent.ask number (.newName stem) nofun rfl
      | registerNew stem value => exact coherent.ask number (.registerNew stem value) nofun rfl
      | find stem key => exact coherent.ask number (.find stem key) nofun rfl
      | registerName title value =>
          by_cases known : title ∈ attributed.titles
          · obtain ⟨handle, given, rfl⟩ := mem_titles_iff.mp known
            refine coherent.ask number (.registerName handle value) ?_ ?_
            · intro other value' same
              cases same
              exact given
            · have here := coherent.handle?_title given
              unfold handle? at here
              show attributed.session.perform (.registerName _ _ _) = _
              simp only [Session.asking, Session.perform, here, coherent.sound.getElem?_id given]
          · exact coherent.ask_unknown number value known

/-! ## Runs -/

theorem coherent_empty : Coherent {} := by
  refine ⟨Session.sound_empty, ?_, rfl, ?_, List.nodup_nil⟩
  · exact fun registry among => absurd among List.not_mem_nil
  · exact fun title held => absurd held List.not_mem_nil

/-- A report is the same by titles. -/
theorem Matches.report {later : Attributed} {reply : Reply Handle}
    {titled : Reply Title × Titled.Session} (matches' : Matches later reply titled)
    (instruction : Instruction) :
    later.report instruction reply = titled.2.report instruction titled.1 := by
  rw [← matches'.titled, ← matches'.reply]
  have shown : reply.map later.showing = (reply.map later.title).map later.titled.showing := by
    rw [Reply.map_map]
    refine Reply.map_congr fun handle named => congrArg (Showing.mk _) ?_
    exact (matches'.coherent.binding?_title (matches'.given handle named)).symm
  have columns : later.column instruction = later.titled.column instruction := by
    cases instruction with
    | openRegistry table scope style => rfl
    | ask number request =>
        have there : later.titled.registries[number]? =
            later.session.registries[number]?.map later.titledRegistry := List.getElem?_map
        simp only [column, Titled.Session.column, there]
        cases later.session.registries[number]? with
        | none => rfl
        | some registry => rfl
  unfold Attributed.report Titled.Session.report
  rw [shown, columns]

/-- A step by names and a step by titles. -/
theorem Coherent.step (coherent : attributed.Coherent) (instruction : Instruction) :
    (attributed.step instruction).2.Coherent ∧
      (attributed.step instruction).1 = (attributed.titled.step instruction).1 ∧
      (attributed.step instruction).2.titled = (attributed.titled.step instruction).2 :=
  have matched := coherent.perform instruction
  ⟨matched.coherent, matched.report instruction, matched.titled⟩

/-- **Titles are enough.** -/
theorem Coherent.run (coherent : attributed.Coherent) (instructions : List Instruction) :
    (attributed.run instructions).2.Coherent ∧
      (attributed.run instructions).1 = (attributed.titled.run instructions).1 ∧
      (attributed.run instructions).2.titled = (attributed.titled.run instructions).2 := by
  induction instructions generalizing attributed with
  | nil => exact ⟨coherent, rfl, rfl⟩
  | cons instruction rest ih =>
      obtain ⟨later, report, titled⟩ := coherent.step instruction
      obtain ⟨last, reports, titled'⟩ := ih later
      rw [titled] at reports titled'
      refine ⟨last, ?_, titled'⟩
      rw [run_cons, Titled.Session.run_cons, report, reports]

theorem run_titled (instructions : List Instruction) :
    (run {} instructions).2.Coherent ∧
      (run {} instructions).1 = (Titled.Session.run {} instructions).1 ∧
      (run {} instructions).2.titled = (Titled.Session.run {} instructions).2 :=
  coherent_empty.run instructions

/-! ## Instructions and operations -/

theorem session_step (instruction : Instruction) :
    (attributed.step instruction).2.session =
      (attributed.session.perform (attributed.operation instruction)).2 := by
  cases instruction with
  | openRegistry table scope style => rfl
  | ask number request => rfl

/-- What is done with registries can be told by instructions. -/
theorem Coherent.exists_instruction (coherent : attributed.Coherent) {operation : Operation}
    (ofRegistries : operation.ofRegistries = true) :
    ∃ instruction, attributed.session.perform (attributed.operation instruction) =
      attributed.session.perform operation := by
  cases operation with
  | openAllocator scope => exact absurd ofRegistries Bool.false_ne_true
  | openTable => exact absurd ofRegistries Bool.false_ne_true
  | allocate allocator request => exact absurd ofRegistries Bool.false_ne_true
  | openRegistry table scope style => exact ⟨.openRegistry table scope style, rfl⟩
  | newName number stem => exact ⟨.ask number (.newName stem), rfl⟩
  | registerNew number stem value => exact ⟨.ask number (.registerNew stem value), rfl⟩
  | find number stem key => exact ⟨.ask number (.find stem key), rfl⟩
  | registerName number place value =>
      cases here : attributed.session.ledger.handles[place]? with
      | some handle =>
          have given := List.mem_of_getElem? here
          refine ⟨.ask number (.registerName (attributed.title handle) value), ?_⟩
          rw [coherent.operation_registerName given, coherent.sound.id_eq here]
      | none =>
          -- no title stands for a name that is not there, but there is no such registry either
          refine ⟨.ask attributed.session.registries.length (.find "" (.text "")), ?_⟩
          have absent := List.getElem?_eq_none (Nat.le_refl attributed.session.registries.length)
          simp only [operation, Session.perform, absent, here]

/-- **Every run** of operations on registries is a run of instructions. -/
theorem Coherent.exists_run (coherent : attributed.Coherent) {operations : List Operation}
    (ofRegistries : ∀ operation ∈ operations, operation.ofRegistries = true) :
    ∃ instructions, instructions.length = operations.length ∧
      (attributed.run instructions).2.session = (attributed.session.run operations).2 := by
  induction operations generalizing attributed with
  | nil => exact ⟨[], rfl, rfl⟩
  | cons operation rest ih =>
      obtain ⟨first, meant⟩ := coherent.exists_instruction
        (ofRegistries operation List.mem_cons_self)
      obtain ⟨instructions, length, last⟩ := ih (coherent.step first).1
        fun other among => ofRegistries other (List.mem_cons_of_mem _ among)
      rw [session_step, meant] at last
      exact ⟨first :: instructions, congrArg (· + 1) length, last⟩

end Attributed

end NameScope
