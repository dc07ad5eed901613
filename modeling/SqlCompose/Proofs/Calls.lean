import Mathlib.Logic.ExistsUnique
import SqlCompose.Proofs.Config
import SqlCompose.Proofs.Identifier
import SqlCompose.Proofs.Last

/-!
# Configs set call by call

All calls put members into one store, where each name has what was put under it last
(`lookup_foldl_apply`). So each setting of a config is that of the last call that speaks of it, or
its default (`Asks`). Only these are checked at the end, and the column names that pass are plain
identifiers (`build_texts`).
-/

namespace SqlCompose.Config

open Shape Shape.Decoded

/-! ### The store -/

def memberNames : List String := ["target", "num_column", "remaining_column", "pagination_columns"]

/-- What a call puts under a name. -/
def Call.put? (name : String) (a : Call) : Option Value := (a.apply []).lookup name

section

variable {ms : List (String × Value)} {name : String}

theorem Call.lookup_apply (a : Call) :
    (a.apply ms).lookup name = (a.put? name).or (ms.lookup name) := by
  cases a with
  | target v => grind [put?, apply, lookup_putMember]
  | paginationColumns num remaining => grind [put?, apply, lookup_putMember]
  | withoutPaginationColumns => grind [put?, apply, lookup_putMember]

theorem lookup_foldl_apply (calls : List Call) :
    (calls.foldl Call.apply ms).lookup name =
      (lastSome? (Call.put? name) calls).or (ms.lookup name) := by
  induction calls generalizing ms with
  | nil => rfl
  | cons a calls ih => rw [List.foldl_cons, ih, Call.lookup_apply, lastSome?_cons, Option.or_assoc]

theorem names_putMember_subset {v : Value} (hname : name ∈ memberNames)
    (h : ms.map Prod.fst ⊆ memberNames) : (putMember name v ms).map Prod.fst ⊆ memberNames := by
  intro m hm
  rcases mem_names_putMember.mp hm with rfl | hm
  · exact hname
  · exact h hm

theorem names_foldl_apply_subset (h : ms.map Prod.fst ⊆ memberNames) (calls : List Call) :
    (calls.foldl Call.apply ms).map Prod.fst ⊆ memberNames := by
  induction calls generalizing ms with
  | nil => exact h
  | cons a calls ih =>
    refine ih ?_
    cases a with
    | target v => exact names_putMember_subset (by decide) h
    | paginationColumns num remaining =>
      exact names_putMember_subset (by decide)
        (names_putMember_subset (by decide) (names_putMember_subset (by decide) h))
    | withoutPaginationColumns => exact names_putMember_subset (by decide) h

end

/-! ### Calls with texts -/

/-- A call whose arguments are texts. -/
inductive TextCall where
  | target (name : String)
  | paginationColumns (num remaining : Option String)
  | withoutPaginationColumns

namespace TextCall

def call : TextCall → Call
  | target name => .target (.str name)
  | paginationColumns num remaining => .paginationColumns (num.map .str) (remaining.map .str)
  | withoutPaginationColumns => .withoutPaginationColumns

/-! A call speaks of a setting if it says something of it. -/

def target? : TextCall → Option String
  | target name => some name
  | _ => none

def numColumn? : TextCall → Option String
  | paginationColumns num _ => some (num.getD "_num")
  | _ => none

def remainingColumn? : TextCall → Option String
  | paginationColumns _ remaining => some (remaining.getD "_remaining")
  | _ => none

def windowColumns? : TextCall → Option Bool
  | target _ => none
  | paginationColumns .. => some true
  | withoutPaginationColumns => some false

variable (a : TextCall)

theorem put?_target : a.call.put? "target" = a.target?.map .str := by
  cases a <;> rfl

theorem put?_numColumn : a.call.put? "num_column" = a.numColumn?.map .str := by
  cases a with
  | paginationColumns num _ => cases num <;> rfl
  | _ => rfl

theorem put?_remainingColumn : a.call.put? "remaining_column" = a.remainingColumn?.map .str := by
  cases a with
  | paginationColumns _ remaining => cases remaining <;> rfl
  | _ => rfl

theorem put?_windowColumns : a.call.put? "pagination_columns" = a.windowColumns?.map .bool := by
  cases a <;> rfl

end TextCall

/-- A config has what the last of the calls that speak of a setting say of it, and its defaults. -/
structure Asks (calls : List TextCall) (c : Config) : Prop where
  target : LastSaid TextCall.target? calls "sqlite" c.target
  numColumn : LastSaid TextCall.numColumn? calls "_num" c.numColumn
  remainingColumn : LastSaid TextCall.remainingColumn? calls "_remaining" c.remainingColumn
  windowColumns : LastSaid TextCall.windowColumns? calls true c.windowColumns

/-- A name of letters, digits and underscores. -/
structure PlainName (s : String) : Prop where
  ne_empty : s ≠ ""
  chars : ∀ c ∈ s.toList,
    ('A' ≤ c ∧ c ≤ 'Z') ∨ ('a' ≤ c ∧ c ≤ 'z') ∨ ('0' ≤ c ∧ c ≤ '9') ∨ c = '_'

/-- The fault of a column name, if it is no plain one. -/
def columnFault (name s : String) : List Fault :=
  if isPlainIdentifier s then []
  else [⟨[.member name], .rejected ("'" ++ s ++ "' is not a plain SQL identifier")⟩]

/-- The faults of the column names of a config, in order. -/
def columnFaults (c : Config) : List Fault :=
  columnFault "num_column" c.numColumn ++ columnFault "remaining_column" c.remainingColumn

variable {calls : List TextCall} {c : Config}

theorem existsUnique_asks (calls : List TextCall) : ∃! c, Asks calls c := by
  refine ⟨⟨(lastSome? TextCall.target? calls).getD "sqlite",
    (lastSome? TextCall.numColumn? calls).getD "_num",
    (lastSome? TextCall.remainingColumn? calls).getD "_remaining",
    (lastSome? TextCall.windowColumns? calls).getD true⟩, ?_, ?_⟩
  · exact ⟨lastSaid_iff.mpr rfl, lastSaid_iff.mpr rfl, lastSaid_iff.mpr rfl, lastSaid_iff.mpr rfl⟩
  · rintro c ⟨htarget, hnum, hremaining, hwindow⟩
    rw [lastSaid_iff.mp htarget, lastSaid_iff.mp hnum, lastSaid_iff.mp hremaining,
      lastSaid_iff.mp hwindow]

/-! ### Members of the store -/

section

variable {α β : Type} {f : TextCall → Option β} {g : β → Value} {name : String}
  (hput : ∀ a : TextCall, a.call.put? name = (f a).map g)
include hput

theorem lookup_foldl_call :
    ((calls.map TextCall.call).foldl Call.apply []).lookup name = (lastSome? f calls).map g := by
  rw [lookup_foldl_apply, List.lookup_nil, Option.or_none]
  induction calls with
  | nil => rfl
  | cons a calls ih =>
    rw [List.map_cons, lastSome?_cons, lastSome?_cons, ih, hput, Option.map_or]

/-- A member is decoded as what was said of it last, if the default is decoded as itself. -/
theorem member_foldl_call {decode : Value → Decoded α} {default : α} {b d : β}
    (hdefault : decode (g d) = .ok default) (h : LastSaid f calls d b) :
    member ((calls.map TextCall.call).foldl Call.apply []) name default decode =
      (decode (g b)).under (.member name) := by
  obtain rfl := lastSaid_iff.mp h
  rw [member, lookup_foldl_call hput]
  cases lastSome? f calls with
  | none =>
    rw [Option.getD_none, hdefault]
    rfl
  | some b => rfl

end

/-! ### The config at the end -/

theorem plainName_iff {s : String} : PlainName s ↔ isPlainIdentifier s := by
  rw [isPlainIdentifier, Bool.and_eq_true, bne_iff_ne, List.all_eq_true]
  simp only [isIdentifierChar_iff]
  exact ⟨fun h => ⟨h.ne_empty, h.chars⟩, fun h => ⟨h.1, h.2⟩⟩

theorem columnFault_eq_nil_iff {name s : String} : columnFault name s = [] ↔ PlainName s := by
  rw [plainName_iff, columnFault]
  split <;> simp [*]

theorem columnFaults_eq_nil_iff :
    c.columnFaults = [] ↔ PlainName c.numColumn ∧ PlainName c.remainingColumn := by
  rw [columnFaults, List.append_eq_nil_iff, columnFault_eq_nil_iff, columnFault_eq_nil_iff]

theorem under_decodeColumn (name s : String) :
    (decodeColumn (.str s)).under (.member name) =
      if isPlainIdentifier s then .ok s else .error (columnFault name s) := by
  cases h : isPlainIdentifier s with
  | true =>
    rw [decodeColumn, if_pos h]
    rfl
  | false =>
    rw [decodeColumn, columnFault, h]
    rfl

theorem build_of_asks (h : Asks calls c) :
    build (calls.map TextCall.call) =
      if c.columnFaults = [] then .ok c
      else .error (.malformedConfig ⟨.config, c.columnFaults⟩) := by
  let ms := (calls.map TextCall.call).foldl Call.apply []
  have htarget : member ms "target" "sqlite" text = _ :=
    member_foldl_call TextCall.put?_target rfl h.target
  have hnum : member ms "num_column" "_num" decodeColumn = _ :=
    member_foldl_call TextCall.put?_numColumn rfl h.numColumn
  have hremaining : member ms "remaining_column" "_remaining" decodeColumn = _ :=
    member_foldl_call TextCall.put?_remainingColumn rfl h.remainingColumn
  have hwindow : member ms "pagination_columns" true bool = _ :=
    member_foldl_call TextCall.put?_windowColumns rfl h.windowColumns
  have honly : onlyMembers memberNames ms = .ok () :=
    onlyMembers_of_subset fun m hm =>
      names_foldl_apply_subset (List.nil_subset _) _ (List.mem_map_of_mem hm)
  rw [under_decodeColumn] at hnum hremaining
  rw [memberNames] at honly
  change (decode (.obj ms)).mapError _ = _
  rw [decode, htarget, hnum, hremaining, hwindow, honly, columnFaults]
  cases hplain : isPlainIdentifier c.numColumn <;>
    cases hplain' : isPlainIdentifier c.remainingColumn <;>
      (rw [columnFault, columnFault, hplain, hplain']; rfl)

/-- The columns of any config that is built, whatever the arguments were, are kept by sanitizing. -/
theorem sanitize_columns_of_build {calls : List Call} (h : build calls = .ok c) :
    sanitize c.numColumn = c.numColumn ∧ sanitize c.remainingColumn = c.remainingColumn := by
  have haccepted : c.Accepted := by
    cases hdecode : ofCalls calls with
    | error faults =>
      rw [build, hdecode] at h
      contradiction
    | ok c' =>
      rw [build, hdecode] at h
      obtain rfl := Except.ok.inj h
      exact ⟨_, hdecode⟩
  obtain ⟨hnum, hremaining⟩ := haccepted.columns
  exact ⟨((isPlainIdentifier_iff _).mp hnum).2, ((isPlainIdentifier_iff _).mp hremaining).2⟩

/-- Of the calls with texts those count that speak last of a setting, and the config is refused if
these name a window column with other characters than those of identifiers. -/
theorem build_texts (calls : List TextCall) :
    (∃! c, Asks calls c) ∧
    ∀ c, Asks calls c →
      ((∃ b, build (calls.map TextCall.call) = .ok b) ↔
        PlainName c.numColumn ∧ PlainName c.remainingColumn) ∧
      (∀ b, build (calls.map TextCall.call) = .ok b → b = c ∧
        sanitize b.numColumn = b.numColumn ∧ sanitize b.remainingColumn = b.remainingColumn) ∧
      (∀ e, build (calls.map TextCall.call) = .error e →
        e = .malformedConfig ⟨.config, c.columnFaults⟩) ∧
      ∀ calls', Asks calls' c →
        build (calls'.map TextCall.call) = build (calls.map TextCall.call) := by
  refine ⟨existsUnique_asks calls, fun c h => ⟨?_, fun b hb => ?_, fun e he => ?_,
    fun calls' h' => by rw [build_of_asks h, build_of_asks h']⟩⟩
  · rw [build_of_asks h, ← columnFaults_eq_nil_iff]
    split <;> simp [*]
  · have hsanitize := sanitize_columns_of_build hb
    rw [build_of_asks h] at hb
    split at hb
    · exact ⟨(Except.ok.inj hb).symm, hsanitize⟩
    · contradiction
  · rw [build_of_asks h] at he
    split at he
    · contradiction
    · exact (Except.error.inj he).symm

/-- A column name that is no plain one is replaced before the end, after a name that is left out. -/
def changedCalls : List TextCall :=
  [.target "mysql", .withoutPaginationColumns, .paginationColumns (some "row num") none,
    .target "postgres", .paginationColumns none (some "left_1"), .withoutPaginationColumns]

theorem build_texts_of_changedCalls :
    Asks changedCalls ⟨"postgres", "_num", "left_1", false⟩ ∧
    build (changedCalls.map TextCall.call) = .ok ⟨"postgres", "_num", "left_1", false⟩ ∧
    ∃ e, build ((changedCalls.take 4).map TextCall.call) = .error e ∧
      e = .malformedConfig ⟨.config, [⟨[.member "num_column"],
        .rejected "'row num' is not a plain SQL identifier"⟩]⟩ := by
  have hasks : Asks changedCalls ⟨"postgres", "_num", "left_1", false⟩ :=
    ⟨lastSaid_iff.mpr rfl, lastSaid_iff.mpr rfl, lastSaid_iff.mpr rfl, lastSaid_iff.mpr rfl⟩
  have hasks' : Asks (changedCalls.take 4) ⟨"postgres", "row num", "_remaining", true⟩ :=
    ⟨lastSaid_iff.mpr rfl, lastSaid_iff.mpr rfl, lastSaid_iff.mpr rfl, lastSaid_iff.mpr rfl⟩
  obtain ⟨hok, hbuilt, -, -⟩ := (build_texts changedCalls).2 _ hasks
  obtain ⟨hok', -, hrefused, -⟩ := (build_texts (changedCalls.take 4)).2 _ hasks'
  obtain ⟨b, hb⟩ := hok.mpr ⟨plainName_iff.mpr (by decide), plainName_iff.mpr (by decide)⟩
  obtain ⟨rfl, -⟩ := hbuilt b hb
  have hspace : ¬ PlainName "row num" := fun h => by
    have hplain := plainName_iff.mp h
    contradiction
  cases hbuild : build ((changedCalls.take 4).map TextCall.call) with
  | ok c => exact absurd (hok'.mp ⟨c, hbuild⟩).1 hspace
  | error e => exact ⟨hasks, hb, e, rfl, hrefused e hbuild⟩

end SqlCompose.Config
