import ChainSettle.Lib.Pool
import ChainSettle.Semantics.Values
import Mathlib.Data.List.Count

/-!
Addresses that bounce. The email provider reports bounces and complaints, which put an address on
the suppression list; an admin takes it off again; and `sendEmail` asks the list before it hands a
mail to the transporter. Deliveries of the provider, mails and removals are under way in any number,
each of them suspended before its next statement.

An address that is on the list stays silent until it is taken off, but for the mails that had asked
before. A delivery is answered only when all its addresses are on the list.
-/

namespace ChainSettle

open Lib

section Events

inductive EmailSuppressionReason where
  | BOUNCE
  | COMPLAINT
deriving DecidableEq

/-- An event as the provider writes it. -/
structure EmailProviderEvent where
  type : Option Json
  event : Option Json
  email : Option Json
  recipient : Option Json
  bounceType : Option Json

def COMPLAINT_TYPES : List String := ["complaint", "spamreport", "spam_report", "abuse"]

def HARD_BOUNCE_TYPES : List String := ["hard_bounce", "hardbounce", "permanent_bounce"]

def SOFT_BOUNCE_KINDS : List String := ["soft", "transient", "temporary"]

/-- `value ?? other` -/
def nullish (value other : Option Json) : Option Json :=
  match value with
  | none | some .null => other
  | some value => some value

variable (text : CaseMapping)

def lowerOr (value : Option Json) (default : String) : String :=
  text.toLowerCase (((nullish value none).map Json.toJsString).getD default)

def classifyEmailEvent (evt : EmailProviderEvent) : Option EmailSuppressionReason :=
  let type := lowerOr text (nullish evt.type evt.event) ""
  if type ∈ COMPLAINT_TYPES then some .COMPLAINT
  else if type ∈ HARD_BOUNCE_TYPES then some .BOUNCE
  else if type = "bounce" ∨ type = "bounced" then
    if lowerOr text evt.bounceType "hard" ∈ SOFT_BOUNCE_KINDS then none else some .BOUNCE
  else none

/-- `email.trim().toLowerCase()` -/
def normalizeAddress (email : String) : String :=
  text.toLowerCase (String.ofList (jsTrim email.toList))

/-- The address of an event; `trim` throws on what is not a text. -/
def EmailProviderEvent.address (evt : EmailProviderEvent) : Except Unit (Option String) :=
  match nullish evt.email evt.recipient with
  | none | some .null => .ok none
  | some (.str email) => .ok (some (normalizeAddress text email))
  | some _ => .error ()

/-- Where the loop of `handleEvents` stops next. -/
inductive Upcoming where
  | done
  | thrown
  | suppress (email : String) (reason : EmailSuppressionReason) (rest : List EmailProviderEvent)

def upcoming : List EmailProviderEvent → Upcoming
  | [] => .done
  | evt :: rest =>
      match evt.address text with
      | .error _ => .thrown
      | .ok address =>
          match classifyEmailEvent text evt, truthyText address with
          | some reason, some email => .suppress email reason rest
          | _, _ => upcoming rest

/-- The address that an event suppresses, as it is stored. -/
def EmailProviderEvent.suppresses (evt : EmailProviderEvent) : Option String :=
  match evt.address text with
  | .error _ => none
  | .ok address =>
      match classifyEmailEvent text evt, truthyText address with
      | some _, some email => some (normalizeAddress text email)
      | _, _ => none

end Events

section Statements

structure SuppressionEntry where
  id : String
  email : String
  reason : EmailSuppressionReason
deriving DecidableEq

/-- What has happened, in the order of the statements; deliveries are numbered. -/
inductive SuppressionEvent where
  /-- found on the list, or put on it -/
  | listed (delivery : Nat) (email : String)
  | unverified (userId : String)
  | alerted (userId : String) (reason : EmailSuppressionReason)
  | answered (delivery : Nat) (events : List EmailProviderEvent) (suppressed : Nat)
  | removed (email : String)
  | mailed (address : String)

structure SuppressionWorld where
  entries : List SuppressionEntry
  deliveries : Nat
  /-- the latest first -/
  journal : List SuppressionEvent

/-- A delivery with what is left of its events, and how many it has counted. -/
structure BounceDelivery where
  number : Nat
  events : List EmailProviderEvent
  rest : List EmailProviderEvent
  suppressed : Nat

inductive SuppressionCall where
  | handleEvents (events : List EmailProviderEvent)
  | nextEvent (delivery : BounceDelivery)
  | create (delivery : BounceDelivery) (email : String) (reason : EmailSuppressionReason)
  | findOwner (delivery : BounceDelivery) (reason : EmailSuppressionReason)
  | unverify (delivery : BounceDelivery) (reason : EmailSuppressionReason) (userId : String)
  | alert (delivery : BounceDelivery) (reason : EmailSuppressionReason) (userId : String)
  | sendEmail (address : String)
  | sendMail (address : String)
  | remove (id : String)
  | delete (id : String)

/-- Whether the statement throws, the id that the database generates, and the user whom an address
belongs to. -/
structure SuppressionInput where
  thrown : Bool
  id : String
  owner : Option String
deriving DecidableEq

variable (text : CaseMapping)

def SuppressionWorld.suppressed (w : SuppressionWorld) (email : String) : Bool :=
  w.entries.any fun entry => entry.email = email

def SuppressionWorld.record (w : SuppressionWorld) (e : SuppressionEvent) : SuppressionWorld :=
  { w with journal := e :: w.journal }

/-- The event is dealt with. -/
def BounceDelivery.counted (delivery : BounceDelivery) : BounceDelivery :=
  { delivery with suppressed := delivery.suppressed + 1 }

/-- `handleEvents` up to its next statement on the database, which is the lookup of `suppress`. -/
def BounceDelivery.next (input : SuppressionInput) (w : SuppressionWorld)
    (delivery : BounceDelivery) : SuppressionWorld × List SuppressionCall :=
  match upcoming text delivery.rest with
  | .done => (w.record (.answered delivery.number delivery.events delivery.suppressed), [])
  | .thrown => (w, [])
  | .suppress email reason rest =>
      let normalized := normalizeAddress text email
      let delivery := { delivery with rest := rest }
      if input.thrown then (w, [])
      else if w.suppressed normalized then
        (w.record (.listed delivery.number normalized), [.nextEvent delivery.counted])
      else (w, [.create delivery normalized reason])

def SuppressionCall.resume (input : SuppressionInput) (w : SuppressionWorld) :
    SuppressionCall → SuppressionWorld × List SuppressionCall
  | .handleEvents events =>
      let number := w.deliveries
      let delivery : BounceDelivery := ⟨number, events, events, 0⟩
      delivery.next text input { w with deliveries := number + 1 }
  | .nextEvent delivery => delivery.next text input w
  | .create delivery email reason =>
      -- the address is unique
      if input.thrown ∨ w.suppressed email ∨ w.entries.any fun entry => entry.id = input.id then
        (w, [])
      else
        let entry : SuppressionEntry := ⟨input.id, email, reason⟩
        (({ w with entries := w.entries ++ [entry] }).record (.listed delivery.number email),
          [.findOwner delivery reason])
  | .findOwner delivery reason =>
      if input.thrown then (w, [])
      else
        match input.owner with
        | none => (w, [.nextEvent delivery.counted])
        | some userId => (w, [.unverify delivery reason userId])
  | .unverify delivery reason userId =>
      if input.thrown then (w, [])
      else (w.record (.unverified userId), [.alert delivery reason userId])
  | .alert delivery reason userId =>
      if input.thrown then (w, [])
      else (w.record (.alerted userId reason), [.nextEvent delivery.counted])
  | .sendEmail address =>
      -- a lookup that fails counts as one that finds the address
      if input.thrown ∨ w.suppressed (normalizeAddress text address) then (w, [])
      else (w, [.sendMail address])
  | .sendMail address => if input.thrown then (w, []) else (w.record (.mailed address), [])
  | .remove id =>
      if input.thrown ∨ ¬ w.entries.any fun entry => entry.id = id then (w, [])
      else (w, [.delete id])
  | .delete id =>
      if input.thrown then (w, [])
      else
        match w.entries.find? fun entry => entry.id = id with
        | none => (w, [])
        | some entry =>
            (({ w with entries := w.entries.erase entry }).record (.removed entry.email), [])

def suppressions : PoolSystem SuppressionWorld SuppressionCall SuppressionInput Empty where
  starts call := match call with
    | .handleEvents _ | .sendEmail _ | .remove _ => true
    | _ => false
  resume input w call := call.resume text input w
  external event _ := event.elim

abbrev SuppressionPool := Pool SuppressionWorld SuppressionCall

abbrev SuppressionAction := PoolAction SuppressionCall SuppressionInput Empty

def idleSuppressions : SuppressionPool := ⟨⟨[], 0, []⟩, []⟩

end Statements

section Effects

variable {text : CaseMapping} {w : SuppressionWorld}

theorem suppressed_iff {email : String} :
    w.suppressed email = true ↔ ∃ entry ∈ w.entries, entry.email = email := by
  simp [SuppressionWorld.suppressed]

/-- Everything the statements of a delivery that look an event up can do. -/
theorem next_cases (text : CaseMapping) (input : SuppressionInput) (w : SuppressionWorld)
    (delivery : BounceDelivery) :
    (upcoming text delivery.rest = .done ∧ delivery.next text input w =
      (w.record (.answered delivery.number delivery.events delivery.suppressed), [])) ∨
    delivery.next text input w = (w, []) ∨
    ∃ email reason rest, upcoming text delivery.rest = .suppress email reason rest ∧
      ((w.suppressed (normalizeAddress text email) ∧ delivery.next text input w =
        (w.record (.listed delivery.number (normalizeAddress text email)),
          [.nextEvent { delivery with rest := rest }.counted])) ∨
      delivery.next text input w =
        (w, [.create { delivery with rest := rest } (normalizeAddress text email) reason])) := by
  unfold BounceDelivery.next
  cases hupcoming : upcoming text delivery.rest with
  | done => exact .inl ⟨rfl, rfl⟩
  | thrown => exact .inr (.inl rfl)
  | suppress email reason rest =>
      dsimp only
      by_cases hthrown : input.thrown
      · exact .inr (.inl (if_pos hthrown))
      rw [if_neg hthrown]
      refine .inr (.inr ⟨email, reason, rest, rfl, ?_⟩)
      by_cases hlisted : w.suppressed (normalizeAddress text email)
      · exact .inl ⟨hlisted, if_pos hlisted⟩
      · exact .inr (if_neg hlisted)

/-- What is written by one statement: nothing, an entry, something about the entries there are, or
the removal of one. -/
inductive Writes (entries : List SuppressionEntry) (journal : List SuppressionEvent) :
    List SuppressionEntry → List SuppressionEvent → Prop where
  | nothing : Writes entries journal entries journal
  | entered (delivery : Nat) (entry : SuppressionEntry) :
      Writes entries journal (entries ++ [entry]) (.listed delivery entry.email :: journal)
  | found (delivery : Nat) {entry : SuppressionEntry} : entry ∈ entries →
      Writes entries journal entries (.listed delivery entry.email :: journal)
  | noted {e : SuppressionEvent} : (∀ delivery email, e ≠ .listed delivery email) →
      (∀ email, e ≠ .removed email) → Writes entries journal entries (e :: journal)
  | removed {entry : SuppressionEntry} : entry ∈ entries →
      Writes entries journal (entries.erase entry) (.removed entry.email :: journal)

theorem writes_next (input : SuppressionInput) (w : SuppressionWorld) (delivery : BounceDelivery) :
    Writes w.entries w.journal (delivery.next text input w).1.entries
      (delivery.next text input w).1.journal := by
  rcases next_cases text input w delivery with
    ⟨-, h⟩ | h | ⟨email, reason, rest, -, ⟨hlisted, h⟩ | h⟩
  · rw [h]
    exact .noted (by rintro i email ⟨⟩) (by rintro email ⟨⟩)
  · rw [h]
    exact .nothing
  · rw [h]
    obtain ⟨entry, hentry, hemail⟩ := suppressed_iff.mp hlisted
    rw [← hemail]
    exact .found delivery.number hentry
  · rw [h]
    exact .nothing

variable (text) in
theorem writes_resume (input : SuppressionInput) (w : SuppressionWorld) (call : SuppressionCall) :
    Writes w.entries w.journal (call.resume text input w).1.entries
      (call.resume text input w).1.journal := by
  cases call with
  | handleEvents events => exact writes_next input { w with deliveries := w.deliveries + 1 } _
  | nextEvent delivery => exact writes_next input w delivery
  | create delivery email reason =>
      simp only [SuppressionCall.resume]
      split
      · exact .nothing
      · exact .entered delivery.number ⟨input.id, email, reason⟩
  | findOwner delivery reason =>
      simp only [SuppressionCall.resume]
      cases input.owner <;> split <;> exact .nothing
  | unverify delivery reason userId =>
      simp only [SuppressionCall.resume]
      split
      · exact .nothing
      · exact .noted (by rintro i email ⟨⟩) (by rintro email ⟨⟩)
  | alert delivery reason userId =>
      simp only [SuppressionCall.resume]
      split
      · exact .nothing
      · exact .noted (by rintro i email ⟨⟩) (by rintro email ⟨⟩)
  | sendEmail address =>
      simp only [SuppressionCall.resume]
      split <;> exact .nothing
  | sendMail address =>
      simp only [SuppressionCall.resume]
      split
      · exact .nothing
      · exact .noted (by rintro i email ⟨⟩) (by rintro email ⟨⟩)
  | remove id =>
      simp only [SuppressionCall.resume]
      split <;> exact .nothing
  | delete id =>
      simp only [SuppressionCall.resume]
      split
      · exact .nothing
      · cases hentry : w.entries.find? fun entry => entry.id = id with
        | none => exact .nothing
        | some entry => exact .removed (List.mem_of_find?_eq_some hentry)

end Effects

section Silence

variable (text : CaseMapping) (email : String)

/-- How many mails were handed over for an address, however it was spelled. -/
def mailsTo (journal : List SuppressionEvent) : Nat :=
  journal.countP fun
    | .mailed address => normalizeAddress text address = email
    | _ => false

def removals (journal : List SuppressionEvent) : Nat :=
  journal.countP fun
    | .removed other => other = email
    | _ => false

/-- A mail that has asked the list already. -/
def SuppressionCall.hasAsked : SuppressionCall → Bool
  | .sendMail address => normalizeAddress text address = email
  | _ => false

/-- What a call may still hand over: one mail, if it has asked already. -/
def SuppressionCall.mailsDue (call : SuppressionCall) : Nat :=
  if call.hasAsked text email then 1 else 0

variable {text email}

theorem removals_le_of_writes {entries entries' : List SuppressionEntry}
    {journal journal' : List SuppressionEvent} (h : Writes entries journal entries' journal') :
    removals email journal ≤ removals email journal' := by
  have hcons (e : SuppressionEvent) : removals email journal ≤ removals email (e :: journal) :=
    (List.sublist_cons_self e journal).countP_le
  cases h with
  | nothing => exact Nat.le_refl _
  | _ => exact hcons _

/-- Only a removal takes an address off the list. -/
theorem stays_of_writes {entries entries' : List SuppressionEntry}
    {journal journal' : List SuppressionEvent} (h : Writes entries journal entries' journal')
    (hkept : removals email journal' = removals email journal)
    (hlisted : ∃ entry ∈ entries, entry.email = email) :
    ∃ entry ∈ entries', entry.email = email := by
  obtain ⟨entry, hentry, hemail⟩ := hlisted
  cases h with
  | nothing => exact ⟨entry, hentry, hemail⟩
  | entered delivery other => exact ⟨entry, List.mem_append_left _ hentry, hemail⟩
  | found delivery hother => exact ⟨entry, hentry, hemail⟩
  | noted hnot hremoved => exact ⟨entry, hentry, hemail⟩
  | @removed other hother =>
      have hne : entry ≠ other := by
        rintro rfl
        simp [removals, hemail] at hkept
      exact ⟨entry, (List.mem_erase_of_ne hne).mpr hentry, hemail⟩

variable (text email) in
theorem mails_next (input : SuppressionInput) (w : SuppressionWorld) (delivery : BounceDelivery) :
    mailsTo text email (delivery.next text input w).1.journal = mailsTo text email w.journal ∧
      ((delivery.next text input w).2.map (SuppressionCall.mailsDue text email)).sum = 0 := by
  rcases next_cases text input w delivery with
    ⟨-, h⟩ | h | ⟨other, reason, rest, -, ⟨-, h⟩ | h⟩ <;> rw [h] <;> exact ⟨rfl, rfl⟩

variable (text) in
/-- While an address is on the list, nothing is handed over but what had asked before. -/
theorem mails_resume (input : SuppressionInput) {w : SuppressionWorld} (call : SuppressionCall)
    (hlisted : ∃ entry ∈ w.entries, entry.email = email) :
    mailsTo text email (call.resume text input w).1.journal +
        ((call.resume text input w).2.map (SuppressionCall.mailsDue text email)).sum ≤
      mailsTo text email w.journal + call.mailsDue text email := by
  have hdelivery (w' : SuppressionWorld) (delivery : BounceDelivery)
      (hjournal : w'.journal = w.journal) :
      mailsTo text email (delivery.next text input w').1.journal +
          ((delivery.next text input w').2.map (SuppressionCall.mailsDue text email)).sum ≤
        mailsTo text email w.journal + call.mailsDue text email := by
    obtain ⟨hsame, hnone⟩ := mails_next text email input w' delivery
    rw [hsame, hnone, hjournal]
    exact Nat.le_add_right _ _
  cases call with
  | handleEvents events => exact hdelivery _ _ rfl
  | nextEvent delivery => exact hdelivery _ _ rfl
  | create delivery other reason =>
      simp only [SuppressionCall.resume]
      split <;> exact Nat.le_refl _
  | findOwner delivery reason =>
      simp only [SuppressionCall.resume]
      cases input.owner <;> split <;> exact Nat.le_refl _
  | unverify delivery reason userId =>
      simp only [SuppressionCall.resume]
      split <;> exact Nat.le_refl _
  | alert delivery reason userId =>
      simp only [SuppressionCall.resume]
      split <;> exact Nat.le_refl _
  | sendEmail address =>
      simp only [SuppressionCall.resume]
      split
      · exact Nat.le_refl _
      · rename_i hfree
        have hother : normalizeAddress text address ≠ email := by
          rintro rfl
          exact hfree (.inr (suppressed_iff.mpr hlisted))
        simp [SuppressionCall.mailsDue, SuppressionCall.hasAsked, hother]
  | sendMail address =>
      simp only [SuppressionCall.resume]
      split
      · exact Nat.le_add_right _ _
      · by_cases hsame : normalizeAddress text address = email
        · simp [mailsTo, SuppressionWorld.record, SuppressionCall.mailsDue,
            SuppressionCall.hasAsked, hsame]
        · simp [mailsTo, SuppressionWorld.record, SuppressionCall.mailsDue,
            SuppressionCall.hasAsked, hsame]
  | remove id =>
      simp only [SuppressionCall.resume]
      split <;> exact Nat.le_refl _
  | delete id =>
      simp only [SuppressionCall.resume]
      split
      · exact Nat.le_refl _
      · cases w.entries.find? fun entry => entry.id = id with
        | none => exact Nat.le_refl _
        | some entry => exact Nat.le_refl _

variable (text) in
theorem removals_step (s : SuppressionPool) (a : SuppressionAction) :
    removals email s.shared.journal ≤
      removals email ((suppressions text).step s a).shared.journal :=
  (suppressions text).shared_step
    (Q := fun w => removals email s.shared.journal ≤ removals email w.journal) a (Nat.le_refl _)
    (fun input call _ => removals_le_of_writes (writes_resume text input s.shared call))
    fun event => event.elim

variable (text email) in
/-- An address that is on the list, with the mails that may still be handed over. -/
structure Silent (budget : Nat) (s : SuppressionPool) : Prop where
  listed : ∃ entry ∈ s.shared.entries, entry.email = email
  mails : mailsTo text email s.shared.journal +
    (s.inflight.map (SuppressionCall.mailsDue text email)).sum ≤ budget

theorem Silent.step {budget : Nat} {s : SuppressionPool} (h : Silent text email budget s)
    (a : SuppressionAction) (hkept : removals email ((suppressions text).step s a).shared.journal =
      removals email s.shared.journal) :
    Silent text email budget ((suppressions text).step s a) where
  listed := by
    by_contra hgone
    rcases (suppressions text).ended_by_step
      (Q := fun w => ∃ entry ∈ w.entries, entry.email = email) a h.listed hgone with
      ⟨index, input, call, rfl, hcall, hnot⟩ | ⟨event, -⟩
    · rw [(suppressions text).step_at input hcall] at hkept
      exact hnot (stays_of_writes (writes_resume text input s.shared call) hkept h.listed)
    · exact event.elim
  mails := by
    refine (suppressions text).budget_step (fun w => mailsTo text email w.journal)
      (fun _ => budget) (SuppressionCall.mailsDue text email) a h.mails ?_ ?_ fun event => event.elim
    · intro call hstart
      cases call with
      | sendMail address => cases hstart
      | _ => rfl
    · intro index input call others _ _ _ hbudget
      have hpaid := mails_resume text input call h.listed
      calc
        _ = _ + others := (Nat.add_assoc _ _ _).symm
        _ ≤ _ + others := Nat.add_le_add_right hpaid others
        _ = _ := Nat.add_assoc _ _ _
        _ ≤ budget := hbudget

/-- From when an address is on the list until it is taken off, no mail is handed over for any
spelling of it, but those that had asked the list before. -/
theorem suppressed_address_silent (text : CaseMapping) (early late : List SuppressionAction)
    (email : String) :
    let before := (suppressions text).run early idleSuppressions
    let last := (suppressions text).run late before
    (∃ entry ∈ before.shared.entries, entry.email = email) →
      removals email last.shared.journal = removals email before.shared.journal →
      (∃ entry ∈ last.shared.entries, entry.email = email) ∧
        mailsTo text email last.shared.journal ≤ mailsTo text email before.shared.journal +
          before.inflight.countP (SuppressionCall.hasAsked text email) := by
  intro before last hlisted hkept
  have hasked (calls : List SuppressionCall) :
      (calls.map (SuppressionCall.mailsDue text email)).sum =
        calls.countP (SuppressionCall.hasAsked text email) := by
    induction calls with
    | nil => rfl
    | cons call rest ih =>
        rw [List.map_cons, List.sum_cons, List.countP_cons, ih, Nat.add_comm]
        rfl
  have hlast : removals email before.shared.journal ≤ removals email last.shared.journal ∧
      (removals email last.shared.journal = removals email before.shared.journal →
        Silent text email (mailsTo text email before.shared.journal +
          before.inflight.countP (SuppressionCall.hasAsked text email)) last) := by
    refine List.foldlRecOn late (suppressions text).step
      (motive := fun s => removals email before.shared.journal ≤ removals email s.shared.journal ∧
        (removals email s.shared.journal = removals email before.shared.journal →
          Silent text email _ s))
      ⟨Nat.le_refl _, fun _ => ⟨hlisted, by rw [hasked]⟩⟩ fun s hs a _ => ?_
    have hmono : removals email s.shared.journal ≤ _ := removals_step text s a
    refine ⟨Nat.le_trans hs.1 hmono, fun hsame => ?_⟩
    have hbefore : removals email s.shared.journal = removals email before.shared.journal :=
      Nat.le_antisymm (Nat.le_trans hmono (Nat.le_of_eq hsame)) hs.1
    exact (hs.2 hbefore).step a (hsame.trans hbefore.symm)
  obtain ⟨hstays, hmails⟩ := hlast.2 hkept
  exact ⟨hstays, Nat.le_trans (Nat.le_add_right _ _) hmails⟩

def demoBounce : EmailProviderEvent where
  type := some (.str "Bounce")
  event := none
  email := some (.str " Bad@x.io")
  recipient := none
  bounceType := none

def demoSuppression : SuppressionInput := ⟨false, "s1", none⟩

/-- An address bounces. -/
def demoBounces : List SuppressionAction :=
  [.begin (.handleEvents [demoBounce]), .resume 0 demoSuppression, .resume 0 demoSuppression,
    .resume 0 demoSuppression, .resume 0 demoSuppression]

theorem demo_entries : ((suppressions .ascii).run demoBounces idleSuppressions).shared.entries =
    [⟨"s1", "bad@x.io", .BOUNCE⟩] := by
  decide +kernel

/-- A mail to the address in another spelling stays unsent. -/
theorem demo_address_silent :
    let before := (suppressions .ascii).run demoBounces idleSuppressions
    let last := (suppressions .ascii).run
      [.begin (.sendEmail "bad@X.io"), .resume 0 demoSuppression, .resume 0 demoSuppression] before
    (∃ entry ∈ last.shared.entries, entry.email = "bad@x.io") ∧
      mailsTo .ascii "bad@x.io" last.shared.journal ≤
        mailsTo .ascii "bad@x.io" before.shared.journal +
          before.inflight.countP (SuppressionCall.hasAsked .ascii "bad@x.io") :=
  suppressed_address_silent .ascii demoBounces _ "bad@x.io"
    ⟨⟨"s1", "bad@x.io", .BOUNCE⟩, by rw [demo_entries]; exact List.mem_singleton_self _, rfl⟩
    (by decide +kernel)

end Silence

section Answers

/-- The latest entry of the journal about the list and an address says that it is on the list. -/
def Stands (email : String) : List SuppressionEvent → Prop
  | [] => False
  | .listed _ other :: rest => other = email ∨ Stands email rest
  | .removed other :: rest => other ≠ email ∧ Stands email rest
  | _ :: rest => Stands email rest

theorem stands_of_listed {email : String} {delivery : Nat} {after before : List SuppressionEvent}
    (h : .removed email ∉ after) : Stands email (after ++ .listed delivery email :: before) := by
  induction after with
  | nil => exact .inl rfl
  | cons e rest ih =>
      have hrest := ih (List.not_mem_of_not_mem_cons h)
      cases e with
      | listed other address => exact .inr hrest
      | removed address => exact ⟨fun hsame => h (hsame ▸ List.mem_cons_self), hrest⟩
      | _ => exact hrest

/-- What stands in the journal is on the list. -/
def StandsKept (w : SuppressionWorld) : Prop :=
  ∀ email, Stands email w.journal → ∃ entry ∈ w.entries, entry.email = email

theorem standsKept_of_writes {w w' : SuppressionWorld} (h : StandsKept w)
    (hwrites : Writes w.entries w.journal w'.entries w'.journal) : StandsKept w' := by
  intro email hstands
  generalize w'.entries = entries, w'.journal = journal at hwrites hstands ⊢
  cases hwrites with
  | nothing => exact h email hstands
  | entered delivery entry =>
      rcases hstands with hsame | hstands
      · exact ⟨entry, by simp, hsame⟩
      · obtain ⟨other, hother, hemail⟩ := h email hstands
        exact ⟨other, List.mem_append_left _ hother, hemail⟩
  | @found delivery entry hentry =>
      rcases hstands with hsame | hstands
      · exact ⟨entry, hentry, hsame⟩
      · exact h email hstands
  | @noted e hlisted hremoved =>
      cases e with
      | listed other address => exact absurd rfl (hlisted other address)
      | removed address => exact absurd rfl (hremoved address)
      | _ => exact h email hstands
  | @removed entry hentry =>
      obtain ⟨hne, hstands⟩ := hstands
      obtain ⟨other, hother, hemail⟩ := h email hstands
      have hdistinct : other ≠ entry := by
        rintro rfl
        exact hne hemail
      exact ⟨other, (List.mem_erase_of_ne hdistinct).mpr hother, hemail⟩

variable (text : CaseMapping)

/-- The addresses that a list of events suppresses, as they are stored. -/
def bounced (events : List EmailProviderEvent) : List String :=
  events.filterMap (EmailProviderEvent.suppresses text)

variable {text}

theorem bounced_of_done {events : List EmailProviderEvent} (h : upcoming text events = .done) :
    bounced text events = [] := by
  induction events with
  | nil => rfl
  | cons evt rest ih =>
      rw [upcoming] at h
      rw [bounced, List.filterMap_cons, EmailProviderEvent.suppresses]
      cases haddress : evt.address text with
      | error err =>
          rw [haddress] at h
          cases h
      | ok address =>
          rw [haddress] at h
          dsimp only at h ⊢
          split at h
          · cases h
          · exact ih h

theorem bounced_of_suppress {events rest : List EmailProviderEvent} {email : String}
    {reason : EmailSuppressionReason} (h : upcoming text events = .suppress email reason rest) :
    bounced text events = normalizeAddress text email :: bounced text rest := by
  induction events with
  | nil => cases h
  | cons evt others ih =>
      rw [upcoming] at h
      rw [bounced, List.filterMap_cons, EmailProviderEvent.suppresses]
      cases haddress : evt.address text with
      | error err =>
          rw [haddress] at h
          cases h
      | ok address =>
          rw [haddress] at h
          dsimp only at h ⊢
          split at h
          · cases h
            rfl
          · exact ih h

variable (text) in
/-- The addresses of a delivery that it has counted are recorded; those in `pending` come next. -/
def Handled (w : SuppressionWorld) (delivery : BounceDelivery) (pending : List String) : Prop :=
  ∃ counted, bounced text delivery.events = counted ++ (pending ++ bounced text delivery.rest) ∧
    counted.length = delivery.suppressed ∧
    ∀ email ∈ counted, .listed delivery.number email ∈ w.journal

variable (text) in
def CallHandled (w : SuppressionWorld) : SuppressionCall → Prop
  | .nextEvent delivery => Handled text w delivery []
  | .create delivery email _ => Handled text w delivery [email]
  | .findOwner delivery _ | .unverify delivery _ _ | .alert delivery _ _ =>
      ∃ email, Handled text w delivery [email] ∧ .listed delivery.number email ∈ w.journal
  | _ => True

variable (text) in
/-- A delivery that is answered has recorded all its addresses, and counted them. -/
def AllAnswered (w : SuppressionWorld) : Prop :=
  ∀ delivery events suppressed, .answered delivery events suppressed ∈ w.journal →
    suppressed = (bounced text events).length ∧
      ∀ email ∈ bounced text events, .listed delivery email ∈ w.journal

variable {w w' : SuppressionWorld} {delivery : BounceDelivery}

theorem Handled.mono {pending : List String} (h : Handled text w delivery pending)
    (hsub : w.journal ⊆ w'.journal) : Handled text w' delivery pending := by
  obtain ⟨counted, hevents, hlength, hlisted⟩ := h
  exact ⟨counted, hevents, hlength, fun email hemail => hsub (hlisted email hemail)⟩

theorem Handled.counted {email : String} (h : Handled text w delivery [email])
    (hlisted : .listed delivery.number email ∈ w.journal) :
    Handled text w delivery.counted [] := by
  obtain ⟨counted, hevents, hlength, hall⟩ := h
  refine ⟨counted ++ [email], ?_, ?_, ?_⟩
  · rw [List.append_assoc]
    exact hevents
  · rw [List.length_append, hlength]
    rfl
  · intro other hother
    rcases List.mem_append.mp hother with hother | hother
    · exact hall other hother
    · rw [List.mem_singleton.mp hother]
      exact hlisted

theorem CallHandled.mono {call : SuppressionCall} (h : CallHandled text w call)
    (hsub : w.journal ⊆ w'.journal) : CallHandled text w' call := by
  cases call with
  | nextEvent delivery => exact Handled.mono h hsub
  | create delivery email reason => exact Handled.mono h hsub
  | findOwner delivery reason =>
      obtain ⟨email, hhandled, hlisted⟩ := h
      exact ⟨email, hhandled.mono hsub, hsub hlisted⟩
  | unverify delivery reason userId =>
      obtain ⟨email, hhandled, hlisted⟩ := h
      exact ⟨email, hhandled.mono hsub, hsub hlisted⟩
  | alert delivery reason userId =>
      obtain ⟨email, hhandled, hlisted⟩ := h
      exact ⟨email, hhandled.mono hsub, hsub hlisted⟩
  | _ => trivial

theorem AllAnswered.record (h : AllAnswered text w) {e : SuppressionEvent}
    (he : ∀ delivery events suppressed, e ≠ .answered delivery events suppressed) :
    AllAnswered text (w.record e) := by
  intro delivery events suppressed hmem
  rcases List.mem_cons.mp hmem with hsame | hmem
  · exact absurd hsame.symm (he delivery events suppressed)
  · obtain ⟨hlength, hlisted⟩ := h delivery events suppressed hmem
    exact ⟨hlength, fun email hemail => List.mem_cons_of_mem _ (hlisted email hemail)⟩

variable (text) in
theorem handled_next (input : SuppressionInput) (h : AllAnswered text w)
    (hdelivery : Handled text w delivery []) :
    AllAnswered text (delivery.next text input w).1 ∧
      ∀ next ∈ (delivery.next text input w).2,
        CallHandled text (delivery.next text input w).1 next := by
  rcases next_cases text input w delivery with
    ⟨hdone, hnext⟩ | hnext | ⟨email, reason, rest, hrest, hnext⟩
  · rw [hnext]
    obtain ⟨counted, hevents, hlength, hlisted⟩ := hdelivery
    rw [bounced_of_done hdone, List.append_nil, List.append_nil] at hevents
    refine ⟨fun other events suppressed hmem => ?_, List.forall_mem_nil _⟩
    rcases List.mem_cons.mp hmem with hsame | hmem
    · cases hsame
      rw [hevents]
      exact ⟨hlength.symm, fun email hemail => List.mem_cons_of_mem _ (hlisted email hemail)⟩
    · obtain ⟨hcount, hall⟩ := h other events suppressed hmem
      exact ⟨hcount, fun email hemail => List.mem_cons_of_mem _ (hall email hemail)⟩
  · rw [hnext]
    exact ⟨h, List.forall_mem_nil _⟩
  · have hpending : Handled text w { delivery with rest := rest } [normalizeAddress text email] := by
      obtain ⟨counted, hevents, hcounted⟩ := hdelivery
      refine ⟨counted, ?_, hcounted⟩
      rw [hevents, List.nil_append, bounced_of_suppress hrest]
      rfl
    rcases hnext with ⟨-, hnext⟩ | hnext
    · rw [hnext]
      refine ⟨h.record (by rintro i events n ⟨⟩), List.forall_mem_singleton.mpr ?_⟩
      exact (hpending.mono (List.subset_cons_self _ _)).counted List.mem_cons_self
    · rw [hnext]
      exact ⟨h, List.forall_mem_singleton.mpr hpending⟩

variable (text) in
theorem handled_resume (input : SuppressionInput) (h : AllAnswered text w) (call : SuppressionCall)
    (hcall : CallHandled text w call) :
    AllAnswered text (call.resume text input w).1 ∧
      ∀ next ∈ (call.resume text input w).2,
        CallHandled text (call.resume text input w).1 next := by
  have hnothing : AllAnswered text w ∧ ∀ next ∈ ([] : List SuppressionCall), CallHandled text w next :=
    ⟨h, List.forall_mem_nil _⟩
  have hsingle {next : SuppressionCall} (hnext : CallHandled text w next) :
      AllAnswered text w ∧ ∀ other ∈ [next], CallHandled text w other :=
    ⟨h, List.forall_mem_singleton.mpr hnext⟩
  cases call with
  | handleEvents events => exact handled_next text input h ⟨[], rfl, rfl, List.forall_mem_nil _⟩
  | nextEvent delivery => exact handled_next text input h hcall
  | create delivery email reason =>
      simp only [SuppressionCall.resume]
      split
      · exact hnothing
      · have hpending : Handled text w delivery [email] := hcall
        exact ⟨h.record (by rintro i events n ⟨⟩), List.forall_mem_singleton.mpr
          ⟨email, hpending.mono (List.subset_cons_self _ _), List.mem_cons_self⟩⟩
  | findOwner delivery reason =>
      simp only [SuppressionCall.resume]
      split
      · exact hnothing
      · cases input.owner with
        | none =>
            obtain ⟨email, hhandled, hlisted⟩ := hcall
            exact hsingle (hhandled.counted hlisted)
        | some userId => exact hsingle hcall
  | unverify delivery reason userId =>
      simp only [SuppressionCall.resume]
      split
      · exact hnothing
      · have halert : CallHandled text w (.alert delivery reason userId) := hcall
        exact ⟨h.record (by rintro i events n ⟨⟩), List.forall_mem_singleton.mpr
          (halert.mono (List.subset_cons_self _ _))⟩
  | alert delivery reason userId =>
      simp only [SuppressionCall.resume]
      split
      · exact hnothing
      · obtain ⟨email, hhandled, hlisted⟩ := hcall
        exact ⟨h.record (by rintro i events n ⟨⟩), List.forall_mem_singleton.mpr
          ((hhandled.mono (List.subset_cons_self _ _)).counted (List.mem_cons_of_mem _ hlisted))⟩
  | sendEmail address =>
      simp only [SuppressionCall.resume]
      split
      · exact hnothing
      · exact hsingle trivial
  | sendMail address =>
      simp only [SuppressionCall.resume]
      split
      · exact hnothing
      · exact ⟨h.record (by rintro i events n ⟨⟩), List.forall_mem_nil _⟩
  | remove id =>
      simp only [SuppressionCall.resume]
      split
      · exact hnothing
      · exact hsingle trivial
  | delete id =>
      simp only [SuppressionCall.resume]
      split
      · exact hnothing
      · cases w.entries.find? fun entry => entry.id = id with
        | none => exact hnothing
        | some entry =>
            exact ⟨AllAnswered.record (w := { w with entries := w.entries.erase entry }) h
              (by rintro i events n ⟨⟩), List.forall_mem_nil _⟩

theorem journal_of_writes {entries entries' : List SuppressionEntry}
    {journal journal' : List SuppressionEvent} (h : Writes entries journal entries' journal') :
    journal ⊆ journal' := by
  cases h with
  | nothing => exact List.Subset.refl _
  | _ => exact List.subset_cons_self _ _

variable (text) in
theorem answered_step {s : SuppressionPool} (a : SuppressionAction)
    (h : (StandsKept s.shared ∧ AllAnswered text s.shared) ∧
      ∀ call ∈ s.inflight, CallHandled text s.shared call) :
    let next := (suppressions text).step s a
    (StandsKept next.shared ∧ AllAnswered text next.shared) ∧
      ∀ call ∈ next.inflight, CallHandled text next.shared call := by
  obtain ⟨⟨hkept, hanswered⟩, hcalls⟩ := h
  refine (suppressions text).keeps_step (Q := fun w => StandsKept w ∧ AllAnswered text w) a
    ⟨hkept, hanswered⟩ hcalls ?_ ?_ fun event => event.elim
  · intro call _ hstart
    cases call with
    | handleEvents events => trivial
    | sendEmail address => trivial
    | remove id => trivial
    | _ => cases hstart
  · intro index input call _ hcall
    have hwrites := writes_resume text input s.shared call
    obtain ⟨hafter, hnext⟩ := handled_resume text input hanswered call
      (hcalls call (List.mem_of_getElem? hcall))
    exact ⟨⟨standsKept_of_writes hkept hwrites, hafter⟩, hnext, fun other hother =>
      (hcalls other (List.mem_of_mem_eraseIdx hother)).mono (journal_of_writes hwrites)⟩

/-- A delivery is answered with the number of addresses that it suppresses, and only when each of
them is on the list, where it stays until it is taken off. -/
theorem answered_bounces_listed (text : CaseMapping) (actions : List SuppressionAction)
    (delivery : Nat) (events : List EmailProviderEvent) (suppressed : Nat) :
    let last := (suppressions text).run actions idleSuppressions
    .answered delivery events suppressed ∈ last.shared.journal →
      suppressed = (bounced text events).length ∧ ∀ email ∈ bounced text events,
        ∃ after before, last.shared.journal = after ++ .listed delivery email :: before ∧
          (.removed email ∉ after → ∃ entry ∈ last.shared.entries, entry.email = email) := by
  intro last hanswer
  have hlast : (StandsKept last.shared ∧ AllAnswered text last.shared) ∧
      ∀ call ∈ last.inflight, CallHandled text last.shared call := by
    refine List.foldlRecOn actions (suppressions text).step
      (motive := fun s => (StandsKept s.shared ∧ AllAnswered text s.shared) ∧
        ∀ call ∈ s.inflight, CallHandled text s.shared call)
      ⟨⟨?_, ?_⟩, ?_⟩ fun s hs a _ => answered_step text a hs
    · intro email hstands
      exact hstands.elim
    · intro i events n hmem
      cases hmem
    · exact List.forall_mem_nil _
  obtain ⟨hlength, hlisted⟩ := hlast.1.2 delivery events suppressed hanswer
  refine ⟨hlength, fun email hemail => ?_⟩
  obtain ⟨after, before, hjournal⟩ := List.append_of_mem (hlisted email hemail)
  refine ⟨after, before, hjournal, fun hnot => hlast.1.1 email ?_⟩
  rw [hjournal]
  exact stands_of_listed hnot

theorem demo_bounces_listed :
    let last := (suppressions .ascii).run demoBounces idleSuppressions
    1 = (bounced .ascii [demoBounce]).length ∧ ∀ email ∈ bounced .ascii [demoBounce],
      ∃ after before, last.shared.journal = after ++ .listed 0 email :: before ∧
        (.removed email ∉ after → ∃ entry ∈ last.shared.entries, entry.email = email) :=
  answered_bounces_listed .ascii demoBounces 0 [demoBounce] 1 (List.Mem.head _)

end Answers

end ChainSettle
