import DeadLetter.Aws.Answer
import DeadLetter.Aws.BucketAnswer
import DeadLetter.Aws.QueueAnswer
import DeadLetter.Aws.Request
import DeadLetter.Aws.TopicAnswer

/-!
# Replies of AWS to calls

`reply` reads the answer to a call. Where a call about queues returns nothing the body is not looked at. `outcome` is
what a call comes to in a region: one for which there is no request is not answered.
-/

namespace DeadLetter.Aws

set_option autoImplicit false

/-- Any body, for an answer that says nothing. -/
def anything (_ : String) : Option Unit := some ()

def reply : (c : Call) → Answer → Except QueueError c.Reply
  | .queueUrl _, answer => do required .getQueueUrl "QueueUrl" (← answer.read .getQueueUrl queueUrl?)
  | .queueAttributes _, answer => do
    match ← answer.read .getQueueAttributes settings? with
    | some settings => queueAttributes settings
    | none => return ⟨none, 0, 0, none⟩
  | .receive .., answer => Sdk.plain.receive (answer.read .receiveMessage deliveries?)
  | .send .., answer => do return (← answer.read .sendMessage sentId?).getD ""
  | .delete .., answer => answer.read .deleteMessage anything
  | .purge _, answer => answer.read .purgeQueue anything
  | .changeVisibility .., answer => answer.read .changeMessageVisibility anything
  | .createQueue .., answer => do required .createQueue "QueueUrl" (← answer.read .createQueue queueUrl?)
  | .publish .., answer => do return (← answer.read .publish publishedId?).getD ""
  | .subscribe .., answer => do return (← answer.read .subscribe subscriptionArn?).getD ""
  | .topicAttributes _, answer => do
    let settings := (← answer.read .getTopicAttributes topicSettings?).getD []
    return ⟨count settings "SubscriptionsConfirmed", count settings "SubscriptionsPending"⟩
  | .createTopic .., answer => do required .createTopic "TopicArn" (← answer.read .createTopic createdArn?)
  | .headBucket _, answer => answer.read .headBucket bucketFound?

/-- What a call in a region returns, given the answer to its request. -/
def outcome (region : String) (c : Call) (answer : Answer) : Except QueueError c.Reply := do
  let _ ← request region c
  reply c answer

end DeadLetter.Aws
