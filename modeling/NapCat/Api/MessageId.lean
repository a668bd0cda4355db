/-
The message ids of the compatible send routes. An id is the length of the text in bytes, so ids
identify messages in exactly those runs in which texts of one length go to one recipient and agree.
-/
import NapCat.Api.Send
import NapCat.Lib.Fallible
import NapCat.Lib.Json.Value

namespace NapCat.Api

/-- A request on one of the three compatible routes. -/
inductive CompatRequest
  | sendMsg (payload : CompatSendRequest)
  | sendPrivateMsg (payload : SendPrivateRequest)
  | sendGroupMsg (payload : SendGroupRequest)

namespace CompatRequest

def handle (env : Surroundings) : CompatRequest → Outcome
  | .sendMsg payload => Api.sendMsgCompat env payload
  | .sendPrivateMsg payload => Api.sendPrivateMsg env payload
  | .sendGroupMsg payload => Api.sendGroupMsg env payload

/-- The request that the route builds its message from. -/
def compat : CompatRequest → CompatSendRequest
  | .sendMsg payload => payload
  | .sendPrivateMsg payload => ⟨.privateUser, some payload.userId, none, payload.message⟩
  | .sendGroupMsg payload => ⟨.group, none, some payload.groupId, payload.message⟩

def text (r : CompatRequest) : String := r.compat.message

/-- The recipient asked for, without the white space around its id. -/
def recipient (r : CompatRequest) : MessageRecipient :=
  match r.compat.messageType with
  | .privateUser => .privateUser (Text.trim (r.compat.userId.getD ""))
  | .group => .group (Text.trim (r.compat.groupId.getD ""))

def message (r : CompatRequest) : Message := Message.ofText (messageIdFromText r.text) "api" r.recipient r.text

/-! ## One request -/

theorem recipient_ok {r : CompatSendRequest} {recipient : MessageRecipient} (h : r.recipient = .ok recipient) :
    recipient = (CompatRequest.sendMsg r).recipient := by
  unfold CompatSendRequest.recipient at h
  unfold CompatRequest.recipient
  split at h
  · rename_i ht
    dsimp only at h
    split_ifs at h
    · cases h
    · simp only [compat, ht]
      exact (Except.ok.inj h).symm
  · rename_i ht
    dsimp only at h
    split_ifs at h
    · cases h
    · simp only [compat, ht]
      exact (Except.ok.inj h).symm

theorem check_ok {r : CompatSendRequest} {m : Message} (h : r.check = .ok m) :
    m = (CompatRequest.sendMsg r).message := by
  obtain ⟨-, -, h⟩ := Fallible.bind_ok h
  obtain ⟨-, -, h⟩ := Fallible.bind_ok h
  obtain ⟨recipient, hr, h⟩ := Fallible.bind_ok h
  cases h
  rw [recipient_ok hr]
  rfl

/-- An accepted request has enqueued its message and answered with the id of it. -/
theorem accepted {env : Surroundings} {r : CompatRequest} (h : (r.handle env).answer.isOk = true) :
    (r.handle env).enqueued = [.messageReceived r.message] ∧
      (r.handle env).answer = .ok ⟨"ok", 0, ⟨true, r.message.id⟩, none⟩ := by
  have key : r.handle env = pushChecked env r.compat.check := by cases r <;> rfl
  rw [key] at h ⊢
  cases hc : r.compat.check with
  | error e => rw [hc] at h; cases h
  | ok m =>
    have hm : m = r.message := check_ok hc
    rw [hc] at h
    subst hm
    obtain ⟨protocol, queue⟩ := env
    rcases protocol with _ | ⟨e | _⟩
    · cases queue
      · exact ⟨rfl, rfl⟩
      · cases h
      · cases h
    · cases h
    · cases queue
      · exact ⟨rfl, rfl⟩
      · cases h
      · cases h

theorem messageIdFromText_eq_iff {a b : String} :
    messageIdFromText a = messageIdFromText b ↔ a.utf8ByteSize = b.utf8ByteSize := by
  refine ⟨fun h => ?_, fun h => by rw [messageIdFromText, messageIdFromText, h]⟩
  have hd : Nat.toDigits 10 a.utf8ByteSize = Nat.toDigits 10 b.utf8ByteSize := by
    have := congrArg String.toList h
    rw [messageIdFromText, messageIdFromText, String.toList_append, String.toList_append,
      List.append_cancel_left_eq] at this
    simpa [Nat.repr] using this
  have := congrArg (fun ds => Nat.ofDigitChars 10 ds 0) hd
  simpa [Nat.ofDigitChars_ten_toDigits] using this

/-! ## Runs -/

/-- Requests and the surroundings each meets. -/
abbrev Run := List (Surroundings × CompatRequest)

def Accepted (run : Run) : Prop := ∀ p ∈ run, (p.2.handle p.1).answer.isOk = true

/-- The ids of a run tell its messages apart: where two requests give messages that differ in the recipient or the text,
the ids in their answers and in their events differ. -/
def Identify (run : Run) : Prop :=
  ∀ p ∈ run, ∀ q ∈ run, ∀ (m n : Message) (a b : ApiEnvelope SendResponse),
    (p.2.handle p.1).enqueued = [.messageReceived m] → (p.2.handle p.1).answer = .ok a →
    (q.2.handle q.1).enqueued = [.messageReceived n] → (q.2.handle q.1).answer = .ok b →
    (m.recipient ≠ n.recipient ∨ m.elements ≠ n.elements) → a.data.messageId ≠ b.data.messageId ∧ m.id ≠ n.id

/-- Texts of one length in bytes are one text to one recipient. -/
def OneTextPerLength (run : Run) : Prop :=
  ∀ p ∈ run, ∀ q ∈ run, p.2.text.utf8ByteSize = q.2.text.utf8ByteSize →
    p.2.recipient = q.2.recipient ∧ p.2.text = q.2.text

/-- In a run of accepted requests message ids identify messages exactly when the texts of one length
are one text to one recipient. -/
theorem identify_iff {run : Run} (h : Accepted run) : Identify run ↔ OneTextPerLength run := by
  constructor
  · intro hid p hp q hq hlen
    obtain ⟨hpe, hpa⟩ := accepted (h p hp)
    obtain ⟨hqe, hqa⟩ := accepted (h q hq)
    have hids := hid p hp q hq _ _ _ _ hpe hpa hqe hqa
    by_contra hne
    rw [not_and_or] at hne
    have hdiff : p.2.message.recipient ≠ q.2.message.recipient ∨ p.2.message.elements ≠ q.2.message.elements :=
      hne.imp_right fun ht he => ht (MessageElement.text.inj (List.cons.inj he).1)
    exact (hids hdiff).2 (messageIdFromText_eq_iff.2 hlen)
  · intro hone p hp q hq m n a b hpe hpa hqe hqa hdiff
    obtain ⟨hpe', hpa'⟩ := accepted (h p hp)
    obtain ⟨hqe', hqa'⟩ := accepted (h q hq)
    rw [hpe'] at hpe; rw [hpa'] at hpa; rw [hqe'] at hqe; rw [hqa'] at hqa
    cases hpe; cases hpa; cases hqe; cases hqa
    have hlen : p.2.text.utf8ByteSize ≠ q.2.text.utf8ByteSize := by
      intro hlen
      obtain ⟨hr, ht⟩ := hone p hp q hq hlen
      rcases hdiff with hd | hd
      · exact hd hr
      · exact hd (by rw [message, message, ht]; rfl)
    exact ⟨fun he => hlen (messageIdFromText_eq_iff.1 he), fun he => hlen (messageIdFromText_eq_iff.1 he)⟩

/-- Two private messages to one user, of texts of two and of three bytes. -/
def lengthsDiffer : Run :=
  [(⟨none, .accepted⟩, .sendPrivateMsg ⟨"10001", "ab"⟩),
    (⟨none, .accepted⟩, .sendMsg ⟨.privateUser, some "10001", none, "abc"⟩)]

theorem identify_iff_lengthsDiffer : Accepted lengthsDiffer ∧ Identify lengthsDiffer := by
  have h : Accepted lengthsDiffer := by
    unfold Accepted
    decide +kernel
  refine ⟨h, (identify_iff h).2 ?_⟩
  unfold OneTextPerLength
  decide +kernel

/-- Two private messages to one user, of texts of two bytes each. -/
def sameLength : Run :=
  [(⟨none, .accepted⟩, .sendPrivateMsg ⟨"10001", "ab"⟩), (⟨none, .accepted⟩, .sendPrivateMsg ⟨"10001", "cd"⟩)]

/-- Both messages have the id `api-2`. -/
theorem same_length_same_id : Accepted sameLength ∧ ¬ Identify sameLength := by
  refine ⟨by unfold Accepted; decide +kernel, fun h => ?_⟩
  have hids := h (⟨none, .accepted⟩, .sendPrivateMsg ⟨"10001", "ab"⟩) (List.mem_cons_self)
    (⟨none, .accepted⟩, .sendPrivateMsg ⟨"10001", "cd"⟩) (List.mem_cons_of_mem _ List.mem_cons_self)
    ⟨"api-2", "api", .privateUser "10001", [.text "ab"]⟩ ⟨"api-2", "api", .privateUser "10001", [.text "cd"]⟩
    ⟨"ok", 0, ⟨true, "api-2"⟩, none⟩ ⟨"ok", 0, ⟨true, "api-2"⟩, none⟩ (by rfl) (by rfl) (by rfl) (by rfl)
  refine (hids (.inr fun he => ?_)).2 rfl
  have := MessageElement.text.inj (List.cons.inj he).1
  revert this
  decide

end CompatRequest

end NapCat.Api
