import AggregatedRecords.Record.Basic
import AggregatedRecords.Text.Escaped
/-!
# Rendering — as text

A message is shown in the text format of protocol buffers, its fields by
number and each on a line of its own. User records are shown one a line: the
partition key, the explicit hash key in parentheses if there is one, and after
a tab the data between quotes.
-/

namespace AggregatedRecords

namespace Rendering

/-- A line with a field: blanks in front, its name and its value. -/
def fieldLine (indent : Nat) (name : String) (value : List Char) : List Char :=
  List.replicate indent ' ' ++ (name.toList ++ (':' :: ' ' :: (value ++ ['\n'])))

/-- Octets between quotes. -/
def quotedBytes (b : Bytes) : List Char := '"' :: (Text.escape b ++ ['"'])

/-- A text between quotes, by its octets. -/
def quotedText (s : String) : List Char := quotedBytes (Bytes.ofString s)

/-- The fields of a nested message between braces. -/
def block (indent : Nat) (name : String) (fields : List Char) : List Char :=
  List.replicate indent ' ' ++
    (name.toList ++ (' ' :: '\x7b' :: '\n' ::
      (fields ++ (List.replicate indent ' ' ++ ['\x7d', '\n']))))

/-- The lines of a tag. -/
def tagLines (tag : Tag) : List Char :=
  block 2 "tags" <|
    fieldLine 4 "key" (quotedText tag.key) ++
      tag.value.elim [] fun value => fieldLine 4 "value" (quotedText value)

/-- The lines of a record. -/
def recordLines (record : Record) : List Char :=
  block 0 "records" <|
    fieldLine 2 "partition_key_index" (Nat.toDigits 10 record.partitionKeyIndex.toNat) ++
      ((record.explicitHashKeyIndex.elim [] fun index =>
          fieldLine 2 "explicit_hash_key_index" (Nat.toDigits 10 index.toNat)) ++
        (fieldLine 2 "data" (quotedBytes record.data) ++ record.tags.toList.flatMap tagLines))

/-- A message as text. -/
def text (message : AggregatedRecord) : String :=
  String.ofList <|
    (message.partitionKeyTable.toList.flatMap fun key =>
        fieldLine 0 "partition_key_table" (quotedText key)) ++
      ((message.explicitHashKeyTable.toList.flatMap fun key =>
          fieldLine 0 "explicit_hash_key_table" (quotedText key)) ++
        message.records.toList.flatMap recordLines)

/-- The line of a user record. -/
def userLine (r : UserRecord) : List Char :=
  Text.escape (Bytes.ofString r.partitionKey) ++
    ((r.explicitHashKey.elim [] fun key =>
        ' ' :: '(' :: (Text.escape (Bytes.ofString key) ++ [')'])) ++
      ('\t' :: (quotedBytes r.data ++ ['\n'])))

/-- User records as text. -/
def usersText (records : List UserRecord) : String := String.ofList (records.flatMap userLine)

end Rendering

end AggregatedRecords
