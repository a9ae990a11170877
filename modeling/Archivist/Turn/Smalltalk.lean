import Archivist.Text.Blank
import Archivist.Text.Case
import Archivist.Text.Search

/-!
# Small Talk

Greetings, thanks and questions about the assistant itself are answered without looking anything
up. A message is small talk if it is one of some fixed phrases, begins with one of some greetings
and is short, or is very short; but a word of the trade always makes it a question, except in a
fixed phrase. White space and punctuation at the end do not count.
-/

namespace Archivist.Smalltalk

/-- A kind of small talk. -/
inductive Kind where
  | greeting
  | thanks
  | farewell
  | identity
  | acknowledgement
  | smallTalk
  deriving DecidableEq

/-- The rule that has decided. -/
inductive Rule where
  | exactPhrase
  | greeting
  | businessKeyword
  | shortMessage
  | otherwise
  deriving DecidableEq

namespace Kind

/-- Every kind. -/
def all : List Kind := [greeting, thanks, farewell, identity, acknowledgement, smallTalk]

/-- The word for a kind. -/
def word : Kind → String
  | greeting => "greeting"
  | thanks => "thanks"
  | farewell => "farewell"
  | identity => "identity"
  | acknowledgement => "acknowledgement"
  | smallTalk => "small_talk"

/-- The name of a kind, as it is listed. -/
def name : Kind → String
  | greeting => "Greeting"
  | thanks => "Thanks"
  | farewell => "Farewell"
  | identity => "Identity"
  | acknowledgement => "Acknowledgement"
  | smallTalk => "SmallTalk"

/-- The fixed reply. -/
def reply : Kind → String
  | greeting =>
    "您好！我是公文檢索助理，可以幫您查詢公文、派工單與相關統計，請問需要什麼協助？"
  | thanks => "不客氣！還有其他需要查詢的公文或資料嗎？"
  | farewell => "再見，祝您順利！有需要隨時再來查詢。"
  | identity => "我是公文檢索助理，可以依主旨、發文單位、日期搜尋公文，查詢派工單、" ++
      "機關與人員關係，以及統計案件數量。"
  | acknowledgement => "好的，有需要查詢的內容請直接告訴我。"
  | smallTalk => "我主要協助查詢公文與派工資料，請問有什麼想查的嗎？"

end Kind

/-- The word for a rule. -/
def Rule.word : Rule → String
  | exactPhrase => "exact_phrase"
  | greeting => "greeting_prefix"
  | businessKeyword => "business_keyword"
  | shortMessage => "short_message"
  | otherwise => "default"

/-- The name of a rule, as it is listed. -/
def Rule.name : Rule → String
  | exactPhrase => "ExactPhrase"
  | greeting => "GreetingPrefix"
  | businessKeyword => "BusinessKeyword"
  | shortMessage => "ShortMessage"
  | otherwise => "Default"

/-- What a message is: small talk of a kind, or a question. -/
structure Decision where
  rule : Rule
  /-- The kind of small talk; none for a question. -/
  kind : Option Kind
  deriving DecidableEq

namespace Decision

/-- Whether the message is small talk. -/
def isSmalltalk (d : Decision) : Bool := d.kind.isSome

/-- The fixed reply, which only fixed phrases have. -/
def reply? (d : Decision) : Option String :=
  if d.rule = .exactPhrase then d.kind.map Kind.reply else none

/-- The lines that show the decision. -/
def lines (d : Decision) : List String :=
  ((if d.isSmalltalk then "chit-chat" else "retrieval") ++ s!" (rule: {d.rule.name})") ::
    (d.kind.map fun k => "kind: " ++ k.name).toList ++ (d.reply?.map ("reply: " ++ ·)).toList

end Decision

/-- The fixed phrases. -/
def phrases : List (String × Kind) := [
  ("你好", .greeting), ("您好", .greeting), ("哈囉", .greeting), ("嗨", .greeting),
  ("安安", .greeting), ("早", .greeting), ("早安", .greeting), ("午安", .greeting),
  ("晚安", .greeting), ("hi", .greeting), ("hello", .greeting), ("hey", .greeting),
  ("謝謝", .thanks), ("謝謝你", .thanks), ("感謝", .thanks), ("多謝", .thanks),
  ("謝啦", .thanks), ("thanks", .thanks), ("thank you", .thanks), ("再見", .farewell),
  ("掰掰", .farewell), ("拜拜", .farewell), ("bye", .farewell), ("你是誰", .identity),
  ("你叫什麼名字", .identity), ("你會做什麼", .identity), ("你能做什麼", .identity),
  ("你可以做什麼", .identity), ("who are you", .identity), ("好", .acknowledgement),
  ("好的", .acknowledgement), ("ok", .acknowledgement), ("收到", .acknowledgement),
  ("了解", .acknowledgement), ("嗯", .acknowledgement)]

/-- What a short message of small talk may begin with. -/
def greetings : List (String × Kind) := [
  ("你好", .greeting), ("您好", .greeting), ("哈囉", .greeting), ("嗨", .greeting),
  ("早安", .greeting), ("午安", .greeting), ("晚安", .greeting), ("hi ", .greeting),
  ("hello", .greeting), ("hey", .greeting), ("謝謝", .thanks), ("感謝", .thanks),
  ("辛苦了", .thanks), ("再見", .farewell), ("你是", .identity)]

/-- The words of the trade. -/
def businessKeywords : List String := [
  "公文", "來文", "發文", "收文", "文號", "函", "公告", "簽呈", "文件", "資料", "查", "搜尋", "找",
  "派工", "工單", "案件", "承辦", "進度", "統計", "幾件", "多少", "局", "會議", "單位"]

/-- Punctuation that does not count at the end of a message. -/
def endMarks : List Char := "!！。.~～?？,，、…".toList

/-- The longest message that counts as small talk because of a greeting. -/
def maxGreeting : Nat := 12

/-- The longest message that counts as small talk because it is short. -/
def maxShort : Nat := 4

/-- The form in which a message is looked at. -/
def normalize (cs : List Char) : List Char :=
  Text.lower (Text.dropEndWhile (fun c => Text.isBlank c || c ∈ endMarks) (Text.trim cs))

/-- Whether a text holds a word of the trade. -/
def hasBusinessKeyword (cs : List Char) : Bool :=
  businessKeywords.any fun k => Text.occurs k.toList cs

/-- The greeting that a message begins with. -/
def greeting? (cs : List Char) : Option Kind :=
  (greetings.find? fun (g, _) => g.toList.isPrefixOf cs).map (·.2)

/-- What a normalized message is. -/
def classifyNormal (cs : List Char) : Decision :=
  if cs = [] then { rule := .shortMessage, kind := some .smallTalk }
  else match phrases.find? fun (p, _) => p.toList = cs with
    | some (_, kind) => { rule := .exactPhrase, kind := some kind }
    | none =>
      if hasBusinessKeyword cs then { rule := .businessKeyword, kind := none }
      else match if cs.length ≤ maxGreeting then greeting? cs else none with
        | some kind => { rule := .greeting, kind := some kind }
        | none =>
          if cs.length ≤ maxShort then { rule := .shortMessage, kind := some .smallTalk }
          else { rule := .otherwise, kind := none }

/-- What a message is. -/
def classify (message : String) : Decision := classifyNormal (normalize message.toList)

/-- The instructions for a reply to small talk. -/
def instructions : String :=
  "你是公文檢索助理。使用者現在只是在閒聊，請用繁體中文簡短、友善地回應（兩句以內），" ++
    "必要時提醒你可以協助查詢公文、派工單與統計資料。不要編造任何公文內容。"

end Archivist.Smalltalk
