/-
Which names reach what is registered. A prefix may be added under any name and a
type learned under any URI, but a name is taken apart at its first slash after
the leading one, no name of the form `/p/r` has a line feed in it, and all other
names begin with a word and a colon. So there are prefixes and types that no name
reaches, and names that reach another type than the one registered under them.
It is told here which they are (`Registry.naming_of_reachable`).
-/
import Conform.Proofs.Registry.Alias
import Conform.Proofs.Registry.Context
import Conform.Proofs.Schema.TypeName

namespace Conform

namespace Registry

open Conform.TypeName

variable {r : Registry} {p base uri : String}

/-- A prefix can be used: every name made with it stands for its base with the second part
after that. -/
def Abbreviates (r : Registry) (p base : String) : Prop :=
  ∀ rest, IsSecondPart rest → r.expand (short p rest) = .ok (base ++ rest)

/-- A URI reaches the type registered under it: schemas with the URI for a name refer to it,
whatever other members they have. -/
def Reaches (r : Registry) (uri : String) (e : Entry) : Prop :=
  ∀ schema, schemaName? schema = some uri → ∃ members, r.resolve schema = .ok ⟨uri, members, e⟩

/-- What can be named of what is registered. -/
structure Naming (r : Registry) : Prop where
  /-- A prefix can be used if its name may be the first part of names. If a slash is in it,
  names are taken apart there, and another prefix has to stand for the same by chance. -/
  abbreviates_iff : ∀ {p base}, r.base? p = some base →
    (r.Abbreviates p base ↔ IsFirstPart p ∨
      ∃ q p' base', p = q ++ "/" ++ p' ∧ IsFirstPart q ∧ '\n' ∉ p'.toList ∧
        r.base? q = some base' ∧ base = base' ++ p' ++ "/")
  /-- A type can be named if its URI begins with a word and a colon. If it is of the form
  `/p/r`, the prefix `p` has to stand for itself by chance. -/
  reaches_iff : ∀ {uri e}, r.entry? uri = some e →
    (r.Reaches uri e ↔ isUri .unicode uri ∨
      ∃ p rest, uri = short p rest ∧ IsFirstPart p ∧ IsSecondPart rest ∧
        r.base? p = some (short p ""))
  /-- If a type cannot be named, a schema with its URI for a name is refused, or it refers to
  another URI. -/
  misnamed : ∀ {uri e schema}, r.entry? uri = some e → ¬ r.Reaches uri e →
    schemaName? schema = some uri →
      (r.compile schema).result = .error (.badTypeName uri) ∨
      (∃ p, (r.compile schema).result = .error (.unknownPrefix p uri)) ∨
      ∃ uri', uri' ≠ uri ∧ r.expand uri = .ok uri' ∧
        ((r.compile schema).result = .error (.unknownType uri') ∨
          ∃ members e', r.resolve schema = .ok ⟨uri', members, e'⟩)
  /-- A schema that names a kind compiles to what the kind makes of its members. -/
  kind : ∀ {uri k schema members}, r.entry? uri = some (.kind k) → r.Reaches uri (.kind k) →
    schemaMembers? schema = some members → typeName? members = some uri →
      (r.compile schema).result = (k.construct r.compile members).result
  /-- A schema that names a learned type, and no more, compiles as the schema learned. -/
  learned : ∀ {uri stored schema members}, r.entry? uri = some (.learned stored) →
    r.Reaches uri (.learned stored) →
    schemaMembers? schema = some members → typeName? members = some uri →
      (r.compile schema).result =
        if members.keys.any (· != "type") then .error (.composedTypeArguments uri)
        else (r.compile stored).result

theorem isSecondPart_letter : IsSecondPart "r" := ⟨by decide, by decide⟩

theorem abbreviates_iff (hb : r.base? p = some base) :
    r.Abbreviates p base ↔ IsFirstPart p ∨
      ∃ q p' base', p = q ++ "/" ++ p' ∧ IsFirstPart q ∧ '\n' ∉ p'.toList ∧
        r.base? q = some base' ∧ base = base' ++ p' ++ "/" := by
  refine ⟨fun h => ?_, fun h rest hr => ?_⟩
  · have once := h "r" isSecondPart_letter
    by_cases slash : '/' ∈ p.toList
    · obtain ⟨q, p', hq, rfl⟩ := exists_of_slash slash
      obtain ⟨hq, hp', base', hb', he⟩ := (expand_slash_ok_iff hq isSecondPart_letter).1 once
      exact .inr ⟨q, p', base', rfl, hq, hp', hb', he⟩
    · exact .inl ((expand_short_ok_iff slash).1 once).1
  · rcases h with hp | ⟨q, p', base', rfl, hq, hp', hb', he⟩
    · exact (expand_short_ok_iff hp.1).2 ⟨hp, hr, base, hb, rfl⟩
    · exact (expand_slash_ok_iff hq.1 hr).2 ⟨hq, hp', base', hb', he⟩

theorem reaches_iff_expand {e : Entry} (he : r.entry? uri = some e) :
    r.Reaches uri e ↔ r.expand uri = .ok uri := by
  refine ⟨fun h => ?_, fun h schema hs => ?_⟩
  · obtain ⟨members, resolved⟩ := h (.string uri) rfl
    obtain ⟨name, hm, hn, hu, _⟩ := resolve_ok_iff.1 resolved
    cases hm
    cases hn
    exact hu
  · obtain ⟨members, hm, hn⟩ := Option.bind_eq_some_iff.1 hs
    exact ⟨members, resolve_of_known hm hn h he⟩

theorem Sound.misnamed (sound : r.Sound) {schema : Value} (h : r.expand uri ≠ .ok uri)
    (hs : schemaName? schema = some uri) :
    (r.compile schema).result = .error (.badTypeName uri) ∨
      (∃ p, (r.compile schema).result = .error (.unknownPrefix p uri)) ∨
      ∃ uri', uri' ≠ uri ∧ r.expand uri = .ok uri' ∧
        ((r.compile schema).result = .error (.unknownType uri') ∨
          ∃ members e', r.resolve schema = .ok ⟨uri', members, e'⟩) := by
  obtain ⟨members, hm, hn⟩ := Option.bind_eq_some_iff.1 hs
  cases hu : r.expand uri with
  | error e =>
    have result := sound.compile_of_resolve_error (resolve_of_bad_name hm hn hu)
    rcases expand_error hu with rfl | ⟨p, rfl⟩
    · exact .inl result
    · exact .inr (.inl ⟨p, result⟩)
  | ok uri' =>
    have other : uri' ≠ uri := fun same => h (same ▸ hu)
    refine .inr (.inr ⟨uri', other, rfl, ?_⟩)
    cases he : r.entry? uri' with
    | none => exact .inl (sound.compile_of_resolve_error (resolve_of_unknown hm hn hu he))
    | some e' => exact .inr ⟨members, e', resolve_of_known hm hn hu he⟩

/-- In every registry that can be set up it is known which names reach what is registered. -/
theorem naming_of_reachable (h : r.Reachable) : r.Naming where
  abbreviates_iff := abbreviates_iff
  reaches_iff he := (reaches_iff_expand he).trans expand_self_iff
  misnamed he other hs := h.sound.misnamed (fun hu => other ((reaches_iff_expand he).2 hu)) hs
  kind he reached hm hn :=
    h.sound.compile_kind (resolve_of_known hm hn ((reaches_iff_expand he).1 reached) he)
  learned he reached hm hn :=
    h.sound.compile_learned (resolve_of_known hm hn ((reaches_iff_expand he).1 reached) he)

/-- A prefix and a type learned under a URI that it makes names for. -/
theorem naming_of_tag :
    let r := core.run [.addPrefix "ex" "tag:ex:", .learn "tag:ex:a" (.string "//int")]
    r.Reachable ∧ r.base? "ex" = some "tag:ex:" ∧
      r.entry? "tag:ex:a" = some (.learned (.string "//int")) ∧ r.Naming := by
  intro r
  have h : r.Reachable := .run .core _
  exact ⟨h, rfl, rfl, naming_of_reachable h⟩

/-- A prefix that no name can use, a URI that is no name, and one that is a name of another. -/
theorem setup_accepts_unreachable :
    let r := core.run [.learn "pos" (.string "//int"), .learn "//str" (.string "//int"),
      .addPrefix "a/b" "tag:x:"]
    r.Reachable ∧
      (r.base? "a/b" = some "tag:x:" ∧ ¬ r.Abbreviates "a/b" "tag:x:" ∧
        r.expand (short "a/b" "r") = .error (.unknownPrefix "a" "/a/b/r")) ∧
      (r.entry? "pos" = some (.learned (.string "//int")) ∧
        ¬ r.Reaches "pos" (.learned (.string "//int")) ∧
        (r.compile (.string "pos")).result = .error (.badTypeName "pos")) ∧
      r.entry? "//str" = some (.learned (.string "//int")) ∧
        ¬ r.Reaches "//str" (.learned (.string "//int")) ∧
        (r.compile (.string "//int")).result = .ok (.integer ⟨none, none⟩) ∧
        (r.compile (.string "//str")).result = .ok (.string ⟨none, none⟩) := by
  intro r
  have name : r.expand (short "a/b" "r") = .error (.unknownPrefix "a" "/a/b/r") := rfl
  have plain : r.expand "pos" = .error (.badTypeName "pos") := rfl
  have other : r.expand "//str" = .ok CoreKind.string.uri := rfl
  have different : CoreKind.string.uri ≠ "//str" := by decide
  refine ⟨.run .core _, ⟨rfl, ?_, name⟩, ⟨rfl, ?_, rfl⟩, rfl, ?_, rfl, rfl⟩ <;> intro h
  · cases name.symm.trans (h "r" isSecondPart_letter)
  · cases plain.symm.trans ((reaches_iff_expand rfl).1 h)
  · exact different (Except.ok.inj (other.symm.trans ((reaches_iff_expand rfl).1 h)))

end Registry

end Conform
